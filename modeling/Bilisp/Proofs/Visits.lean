import Bilisp.Proofs.NodeRoundTrip
import Bilisp.Proofs.Readings

/-!
# What the conversion of a node consists of

The conversion of a node converts some parts of the node, each at a place, and puts their forms together
(`formAt_eq`). Only four shapes of nodes do not fit where they stand (`Node.Fits`); everything else is converted
as soon as its parts are (`exists_formAt_iff`). So a property of all forms of nodes needs a step for one node
and an induction on the size of nodes.
-/

namespace Bilisp

namespace Node

/-- Whether a node can stand among the bindings of a block. -/
def IsBinding : Node → Prop
  | .assignment _ _ | .identifier _ => True
  | _ => False

/-- The name and the value of a binding. A name alone is bound to itself. -/
def bindingParts : Node → List Node
  | .assignment target value => [target, value]
  | .identifier name => [.identifier name, .identifier name]
  | _ => []

/-- The parts of a call: the keys and values of a dictionary, the items of a set, or the callee and its
arguments. -/
def callParts (callee : Node) (args : List Node) : List Node :=
  if (literalShape? callee args).isSome then args.flatMap literalParts else callee :: args

/-- The parts of a node that are converted with it outside macro calls. -/
def plainParts : Node → List Node
  | .quote (.identifier _) => []
  | .call callee args => if (ratio? callee args).isSome then [] else callParts callee args
  | .comparison [left, operator, right] => [operator, left, right]
  | .letBlock bindings body => bindings.flatMap bindingParts ++ [body]
  | .function name params body => name :: (params ++ [body])
  | .anonymous params body | .lambda params body => params ++ [body]
  | .dotAccess base _ => [base]
  | n => n.parts

/-- The parts of a node that are converted with it in a macro call. -/
def quotedParts : Node → List Node
  | .call callee args => callParts callee args
  | .function name params body => callParts name params ++ [body]
  | .anonymous params body | .lambda params body => params ++ [body]
  | .dotAccess base _ => [base]
  | .macroCall _ args => args
  | .moduleBlock name body => name :: body
  | n => n.parts

/-- The nodes that the conversion of a node converts, with their places. -/
def visits : Place → Node → List (Place × Node)
  | .plain _, .macroCall _ args => args.map (Prod.mk .quoted)
  | .plain _, .moduleBlock name body => (.plain false, name) :: body.map (Prod.mk (.plain true))
  | .plain _, n => n.plainParts.map (Prod.mk (.plain false))
  | .quoted, .quote value => [(.plain false, value)]
  | .quoted, n => n.quotedParts.map (Prod.mk .quoted)

/-- Whether a node can be converted at a place, as far as its parts can be. -/
def Fits : Place → Node → Prop
  | .plain top, .assignment _ _ => top = true
  | .plain _, .comparison operands => operands.length = 3
  | .plain _, .range parts => parts.length = 2 ∨ parts.length = 3
  | .plain _, .letBlock bindings _ => ∀ n ∈ bindings, n.IsBinding
  | _, _ => True

/-- The form of a call from the forms of its parts, if it is not a literal. -/
def callForm (callee : Node) (args : List Node) (call : List Form → Form) (forms : List Form) : Form :=
  match literalShape? callee args with
  | some shape => .compound shape forms none
  | none => call forms

/-- The form of a node outside macro calls from the forms of the nodes that it visits. -/
def assemblePlain (top : Bool) : Node → List Form → Form
  | .literal value, _ => value.form
  | .identifier name, _ => nameForm name
  | .quote (.identifier name), _ => keywordForm name
  | .quote _, forms => .headed "quote" forms
  | .interpolate _, forms => .headed "unquote" forms
  | .call callee args, forms =>
    match ratio? callee args with
    | some ratio => .atom (.number (.ratio ratio)) none
    | none => callForm callee args .list forms
  | .comparison _, forms => .list forms
  | .ifThen _ _, forms | .ifElse _ _ _, forms => .headed "if" forms
  | .block [], _ => .nil
  | .block [_], forms => forms.headD .nil
  | .block _, forms => .headed "do" forms
  | .letBlock _ _, forms => .headed "let" [.vector forms.dropLast, forms.getLastD .nil]
  | .function _ _ _, forms =>
    .headed (if top then "defn" else "fn")
      (forms.headD .nil :: .vector forms.tail.dropLast :: splicedBody (forms.tail.getLastD .nil))
  | .anonymous _ _, forms => .headed "fn" (.vector forms.dropLast :: splicedBody (forms.getLastD .nil))
  | .lambda _ _, forms | .bareLambda _ _, forms => .headed "fn" [.vector forms.dropLast, forms.getLastD .nil]
  | .assignment _ _, forms => .headed "def" forms
  | .importNames _, forms => .headed "import" forms
  | .usingNames _, forms => .headed "use" forms
  | .exportNames _, forms => .headed "export" forms
  | .subscript _ _, forms => .headed "aget" forms
  | .range [_, .identifier name], forms => .headed ":" (if name = "end".toList then forms.take 1 else forms)
  | .range _, forms => .headed ":" forms
  | .dotAccess _ field, forms => fieldForm (forms.headD .nil) (unescapeSymbol field)
  | .ascription operands, forms => ascriptionForm operands forms
  | .curly _, forms => .headed "curly" forms
  | .macroCall name _, forms => .list (nameForm name :: forms)
  | .moduleBlock _ _, forms => .headed "module" forms
  | .conjunction _, forms => .headed "and" forms
  | .disjunction _, forms => .headed "or" forms
  | .vector _, forms => .vector forms
  | .tuple [], _ => .list []
  | .tuple _, forms => .headed "tuple" forms
  | .raw head _, forms => .list (nameForm head :: forms)

/-- The form of a node in a macro call from the forms of the nodes that it visits. -/
def assembleQuoted : Node → List Form → Form
  | .literal value, _ => value.form
  | .identifier name, _ => nameForm name
  | .quote _, forms => forms.headD .nil
  | .vector _, forms => .vector forms
  | .call callee args, forms => callForm callee args (.headed "call") forms
  | .function name params _, forms =>
    .headed "function" [callForm name params (.headed "call") forms.dropLast, forms.getLastD .nil]
  | .anonymous _ _, forms => .headed "function" [.headed "tuple" forms.dropLast, forms.getLastD .nil]
  | .lambda _ _, forms => .headed "->" [.headed "tuple" forms.dropLast, forms.getLastD .nil]
  | .dotAccess _ field, forms => .headed "." (forms ++ [nameForm field])
  | .macroCall name _, forms => .headed "macrocall" (nameForm name :: forms)
  | .moduleBlock _ _, forms => .headed "module" [forms.headD .nil, .headed "block" forms.tail]
  | .raw head _, forms => .list (nameForm head :: forms)
  | n, forms => .headed (n.head?.getD []) forms

/-- The form of a node from the forms of the nodes that it visits. -/
def assemble : Place → Node → List Form → Form
  | .plain top, n => n.assemblePlain top
  | .quoted, n => n.assembleQuoted

/-- The forms of nodes at their places. -/
def visitForms (visits : List (Place × Node)) : Except Fault (List Form) := visits.mapM fun v => v.2.formAt v.1

end Node

/-! ## Visits in turn -/

@[simp] lemma visitForms_nil : Node.visitForms [] = pure [] := rfl

@[simp] lemma visitForms_cons (v : Place × Node) (visits : List (Place × Node)) :
    Node.visitForms (v :: visits) = do return (← v.2.formAt v.1) :: (← Node.visitForms visits) := List.mapM_cons

@[simp] lemma visitForms_append (visits others : List (Place × Node)) :
    Node.visitForms (visits ++ others) = do return (← Node.visitForms visits) ++ (← Node.visitForms others) :=
  List.mapM_append

@[simp] lemma visitForms_map (p : Place) (nodes : List Node) :
    Node.visitForms (nodes.map (Prod.mk p)) = Node.formsAt p nodes := by
  induction nodes with
  | nil => rcases p with (_ | _) | _ <;> rfl
  | cons n rest ih => rw [List.map_cons, visitForms_cons, ih, formsAt_cons]

/-! ## Calls and bindings -/

lemma entryFormsAt_entries (p : Place) {nodes : List Node} (heven : nodes.length % 2 = 0) :
    Node.entryFormsAt p (Node.entries nodes) = Node.formsAt p.inner nodes := by
  induction nodes, heven using even_induction with
  | nil => rcases p with (_ | _) | _ <;> rfl
  | pair key value rest _ ih =>
    rw [Node.entries, entryFormsAt_cons, ih, formsAt_cons, formsAt_cons]
    simp only [bind_assoc, pure_bind]

lemma flatMap_literalParts_entries {nodes : List Node} (heven : nodes.length % 2 = 0) :
    (Node.entries nodes).flatMap Node.literalParts = nodes := by
  induction nodes, heven using even_induction with
  | nil => rfl
  | pair key value rest _ ih =>
    rw [Node.entries, List.flatMap_cons, ih]
    rfl

/-- The three kinds of calls: literals of dictionaries and of sets, and calls proper. -/
inductive Node.CallKind : Node → List Node → Prop
  | dictionary {nodes : List Node} (heven : nodes.length % 2 = 0) :
    CallKind (.identifier "Dict") (Node.entries nodes)
  | setOf {items : List Node} : CallKind (.identifier "Set") [.vector items]
  | proper {callee : Node} {args : List Node} (hshape : literalShape? callee args = none) : CallKind callee args

lemma callKind (callee : Node) (args : List Node) : Node.CallKind callee args := by
  cases hshape : literalShape? callee args with
  | none => exact .proper hshape
  | some shape =>
    rcases literalShape?_cases hshape with ⟨nodes, heven, hnode, -⟩ | ⟨items, hnode, rfl⟩
    · obtain ⟨rfl, rfl⟩ := Node.call.inj hnode
      exact .dictionary heven
    · obtain ⟨rfl, -⟩ := Node.call.inj hnode
      exact .setOf

section

variable (call : List Form → Form) (forms : List Form)

lemma callParts_dictionary {nodes : List Node} (heven : nodes.length % 2 = 0) :
    Node.callParts (.identifier "Dict") (Node.entries nodes) = nodes := by
  rw [Node.callParts, literalShape?_dictionary, Option.isSome_some, if_pos rfl, flatMap_literalParts_entries heven]

lemma callParts_setOf (items : List Node) : Node.callParts (.identifier "Set") [.vector items] = items := by
  rw [Node.callParts, literalShape?_setOf, Option.isSome_some, if_pos rfl]
  exact List.append_nil items

lemma callParts_proper {callee : Node} {args : List Node} (hshape : literalShape? callee args = none) :
    Node.callParts callee args = callee :: args := by
  rw [Node.callParts, hshape]
  rfl

lemma callForm_dictionary (nodes : List Node) :
    Node.callForm (.identifier "Dict") (Node.entries nodes) call forms = .compound .map forms none := by
  rw [Node.callForm, literalShape?_dictionary]

lemma callForm_setOf (items : List Node) :
    Node.callForm (.identifier "Set") [.vector items] call forms = .compound .set forms none := by
  rw [Node.callForm, literalShape?_setOf]

lemma callForm_proper {callee : Node} {args : List Node} (hshape : literalShape? callee args = none) :
    Node.callForm callee args call forms = call forms := by
  rw [Node.callForm, hshape]

end

lemma toForm_call {callee : Node} {args : List Node} (hratio : ratio? callee args = none) (top : Bool) :
    (Node.call callee args).toForm top = do
      return Node.callForm callee args .list (← Node.toForms (Node.callParts callee args)) := by
  rw [Node.toForm, hratio]
  cases callKind callee args with
  | @dictionary nodes heven =>
    have hforms : Node.toEntryForms (Node.entries nodes) = Node.toForms nodes :=
      entryFormsAt_entries (.plain top) heven
    simp only [literalShape?_dictionary, callParts_dictionary heven, callForm_dictionary, hforms]
  | @setOf items => simp only [literalShape?_setOf, callParts_setOf, callForm_setOf, Node.toItemForms]
  | proper hshape =>
    simp only [hshape, callParts_proper hshape, callForm_proper _ _ hshape, Node.toForms, bind_assoc, pure_bind]

lemma toQuotedForm_call (callee : Node) (args : List Node) :
    (Node.call callee args).toQuotedForm = do
      return Node.callForm callee args (.headed "call") (← Node.toQuotedForms (Node.callParts callee args)) := by
  rw [Node.toQuotedForm]
  cases callKind callee args with
  | @dictionary nodes heven =>
    have hforms : Node.toQuotedEntryForms (Node.entries nodes) = Node.toQuotedForms nodes :=
      entryFormsAt_entries .quoted heven
    simp only [literalShape?_dictionary, callParts_dictionary heven, callForm_dictionary, hforms]
  | @setOf items => simp only [literalShape?_setOf, callParts_setOf, callForm_setOf, Node.toQuotedItemForms]
  | proper hshape =>
    simp only [hshape, callParts_proper hshape, callForm_proper _ _ hshape, Node.toQuotedForms, bind_assoc,
      pure_bind]

/-- The signature of a function in a macro call is written as a call. -/
lemma toQuotedForm_function (name : Node) (params : List Node) (body : Node) :
    (Node.function name params body).toQuotedForm = do
      return .headed "function" [← (Node.call name params).toQuotedForm, ← body.toQuotedForm] := by
  rw [Node.toQuotedForm, Node.toQuotedForm]
  cases literalShape? name params with
  | none => simp only [bind_assoc, pure_bind]
  | some shape => cases shape <;> simp only [bind_assoc, pure_bind]

lemma toBindingForms_eq {bindings : List Node} (h : ∀ n ∈ bindings, n.IsBinding) :
    Node.toBindingForms bindings = Node.toForms (bindings.flatMap Node.bindingParts) := by
  induction bindings with
  | nil => rfl
  | cons n rest ih =>
    have hrest := ih fun m hm => h m (List.mem_cons_of_mem _ hm)
    cases n with
    | assignment target value =>
      simp only [Node.toBindingForms, hrest, List.flatMap_cons, Node.bindingParts, List.cons_append,
        List.nil_append, Node.toForms, bind_assoc, pure_bind]
    | identifier name =>
      simp only [Node.toBindingForms, hrest, List.flatMap_cons, Node.bindingParts, List.cons_append,
        List.nil_append, Node.toForms, Node.toForm, bind_assoc, pure_bind]
    | _ => exact (h _ List.mem_cons_self).elim

/-! ## One step -/

section

attribute [local simp] Node.formAt Node.formsAt Node.visits Node.parts

lemma toForm_eq {top : Bool} {n : Node} (h : n.Fits (.plain top)) :
    n.toForm top = do return n.assemblePlain top (← Node.visitForms (n.visits (.plain top))) := by
  cases n with
  | quote value => cases value <;> simp [Node.toForm, Node.assemblePlain, Node.plainParts]
  | call callee args =>
    cases hratio : ratio? callee args with
    | some ratio => simp [Node.toForm, Node.assemblePlain, Node.plainParts, hratio]
    | none => simp [toForm_call hratio, Node.assemblePlain, Node.plainParts, hratio]
  | comparison operands =>
    obtain ⟨left, operator, right, rfl⟩ := List.length_eq_three.1 h
    simp [Node.toForm, Node.assemblePlain, Node.plainParts]
  | block body =>
    rcases body with _ | ⟨n, _ | ⟨m, rest⟩⟩
    · rfl
    · simp [Node.toForm, Node.assemblePlain, Node.plainParts]
    · simp [Node.toForm, Node.assemblePlain, Node.plainParts, Node.toForms]
  | letBlock bindings body =>
    simp [Node.toForm, Node.assemblePlain, Node.plainParts, toBindingForms_eq h]
  | assignment target value =>
    obtain rfl : top = true := h
    simp [Node.toForm, Node.assemblePlain, Node.plainParts]
  | range parts =>
    rcases h with hlength | hlength
    · obtain ⟨start, stop, rfl⟩ := List.length_eq_two.1 hlength
      cases stop with
      | identifier name =>
        simp only [Node.toForm, Node.assemblePlain, Node.plainParts, Node.visits, Node.parts, visitForms_map,
          Node.formsAt, Node.toForms, bind_assoc, pure_bind]
        refine congrArg (_ >>= ·) (funext fun f => ?_)
        split <;> rfl
      | _ => simp [Node.toForm, Node.assemblePlain, Node.plainParts, Node.toForms]
    · obtain ⟨start, step, stop, rfl⟩ := List.length_eq_three.1 hlength
      simp [Node.toForm, Node.assemblePlain, Node.plainParts, Node.toForms]
  | tuple items => cases items <;> simp [Node.toForm, Node.assemblePlain, Node.plainParts, Node.toForms]
  | _ => simp [Node.toForm, Node.assemblePlain, Node.plainParts]

lemma toQuotedForm_eq (n : Node) :
    n.toQuotedForm = do return n.assembleQuoted (← Node.visitForms (n.visits .quoted)) := by
  cases n with
  | call callee args => simp [toQuotedForm_call, Node.assembleQuoted, Node.quotedParts]
  | function name params body =>
    simp [toQuotedForm_function, toQuotedForm_call, Node.assembleQuoted, Node.quotedParts]
  | _ => simp [Node.toQuotedForm, Node.assembleQuoted, Node.quotedParts, Node.head?]

/-- A node that fits is converted by converting what it visits, in turn. -/
theorem formAt_eq {p : Place} {n : Node} (h : n.Fits p) :
    n.formAt p = do return n.assemble p (← Node.visitForms (n.visits p)) := by
  cases p with
  | plain top => exact toForm_eq h
  | quoted => exact toQuotedForm_eq n

end

lemma toBindingForms_error {bindings : List Node} (h : ¬∀ n ∈ bindings, n.IsBinding) :
    ∃ fault, Node.toBindingForms bindings = .error fault := by
  induction bindings with
  | nil => exact absurd (fun n hn => absurd hn List.not_mem_nil) h
  | cons n rest ih =>
    have hrest : n.IsBinding → ∃ fault, Node.toBindingForms rest = .error fault := by
      intro hn
      refine ih fun hall => h ?_
      rintro m (_ | ⟨_, hm⟩)
      · exact hn
      · exact hall m hm
    cases n with
    | assignment target value =>
      obtain ⟨fault, hfault⟩ := hrest trivial
      rw [Node.toBindingForms, hfault]
      cases target.toForm false with
      | error fault => exact ⟨fault, rfl⟩
      | ok f => cases value.toForm false <;> exact ⟨_, rfl⟩
    | identifier name =>
      obtain ⟨fault, hfault⟩ := hrest trivial
      rw [Node.toBindingForms, hfault]
      exact ⟨fault, rfl⟩
    | _ => exact ⟨_, rfl⟩

/-- A node that does not fit is not converted. -/
theorem formAt_of_not_fits {p : Place} {n : Node} (h : ¬n.Fits p) : ∃ fault, n.formAt p = .error fault := by
  cases p with
  | quoted => exact absurd trivial h
  | plain top =>
    cases n with
    | assignment target value =>
      obtain rfl : top = false := by simpa [Node.Fits] using h
      exact ⟨_, rfl⟩
    | comparison operands =>
      rw [Node.formAt, Node.toForm]
      · exact ⟨_, rfl⟩
      · rintro left operator right rfl
        exact h rfl
    | range parts =>
      obtain ⟨hne, hne'⟩ := not_or.1 h
      have hlength : (decide (parts.length < 2) || decide (3 < parts.length)) = true := by
        rw [Bool.or_eq_true, decide_eq_true_eq, decide_eq_true_eq]
        omega
      rw [Node.formAt, Node.toForm, if_pos hlength]
      · exact ⟨_, rfl⟩
      · rintro start name rfl
        exact hne rfl
    | letBlock bindings body =>
      obtain ⟨fault, hfault⟩ := toBindingForms_error h
      rw [Node.formAt, Node.toForm, hfault]
      exact ⟨fault, rfl⟩
    | _ => exact absurd trivial h

lemma visitForms_eq_ok {visits : List (Place × Node)} {forms : List Form} :
    Node.visitForms visits = .ok forms ↔ List.Forall₂ (fun v f => v.2.formAt v.1 = .ok f) visits forms := by
  induction visits generalizing forms with
  | nil =>
    rw [visitForms_nil, pure_eq_ok, List.forall₂_nil_left_iff]
    exact eq_comm
  | cons v rest ih =>
    simp only [visitForms_cons, bind_eq_ok, pure_eq_ok, ih, List.forall₂_cons_left_iff]
    constructor
    · rintro ⟨f, hf, others, hothers, rfl⟩
      exact ⟨f, others, hf, hothers, rfl⟩
    · rintro ⟨f, others, hf, hothers, rfl⟩
      exact ⟨f, hf, others, hothers, rfl⟩

/-- A node is converted to what its assembly makes of the forms of the nodes that it visits. -/
theorem formAt_eq_ok {p : Place} {n : Node} {f : Form} :
    n.formAt p = .ok f ↔ n.Fits p ∧ ∃ forms,
      List.Forall₂ (fun v g => v.2.formAt v.1 = .ok g) (n.visits p) forms ∧ n.assemble p forms = f := by
  by_cases h : n.Fits p
  · simp only [formAt_eq h, bind_eq_ok, pure_eq_ok, visitForms_eq_ok, h, true_and]
  · obtain ⟨fault, hfault⟩ := formAt_of_not_fits h
    simp only [hfault, h, false_and, reduceCtorEq]

lemma exists_forall₂_iff {α β : Type} {R : α → β → Prop} {items : List α} :
    (∃ results, List.Forall₂ R items results) ↔ ∀ a ∈ items, ∃ b, R a b := by
  induction items with
  | nil => exact ⟨fun _ a ha => absurd ha List.not_mem_nil, fun _ => ⟨[], .nil⟩⟩
  | cons a rest ih =>
    rw [List.forall_mem_cons, ← ih]
    constructor
    · rintro ⟨_, hresults⟩
      cases hresults with
      | cons hb hrest => exact ⟨⟨_, hb⟩, ⟨_, hrest⟩⟩
    · rintro ⟨⟨b, hb⟩, ⟨results, hrest⟩⟩
      exact ⟨b :: results, .cons hb hrest⟩

/-- A node is converted if it fits and everything that it visits is converted. -/
theorem exists_formAt_iff {p : Place} {n : Node} :
    (∃ f, n.formAt p = .ok f) ↔ n.Fits p ∧ ∀ v ∈ n.visits p, ∃ f, v.2.formAt v.1 = .ok f := by
  rw [← exists_forall₂_iff]
  constructor
  · rintro ⟨f, hf⟩
    obtain ⟨hfits, forms, hforms, -⟩ := formAt_eq_ok.1 hf
    exact ⟨hfits, forms, hforms⟩
  · rintro ⟨hfits, forms, hforms⟩
    exact ⟨n.assemble p forms, formAt_eq_ok.2 ⟨hfits, forms, hforms, rfl⟩⟩

/-! ## Smaller nodes -/

lemma sizeOf_literalParts {n m : Node} (hm : m ∈ n.literalParts) : sizeOf m < sizeOf n := by
  cases n with
  | call callee args =>
    have := List.sizeOf_lt_of_mem (show m ∈ args from hm)
    simp only [Node.call.sizeOf_spec]
    omega
  | vector items =>
    have := List.sizeOf_lt_of_mem (show m ∈ items from hm)
    simp only [Node.vector.sizeOf_spec]
    omega
  | _ => exact absurd hm List.not_mem_nil

lemma sizeOf_callParts {callee m : Node} {args : List Node} (hm : m ∈ Node.callParts callee args) :
    sizeOf m < 1 + sizeOf callee + sizeOf args := by
  rw [Node.callParts] at hm
  split at hm
  · obtain ⟨n, hn, hmn⟩ := List.mem_flatMap.1 hm
    have := List.sizeOf_lt_of_mem hn
    have := sizeOf_literalParts hmn
    omega
  · rw [List.mem_cons] at hm
    rcases hm with rfl | hm
    · omega
    · have := List.sizeOf_lt_of_mem hm
      omega

lemma sizeOf_bindingParts {bindings : List Node} {m : Node} (hm : m ∈ bindings.flatMap Node.bindingParts) :
    sizeOf m < sizeOf bindings := by
  obtain ⟨n, hn, hmn⟩ := List.mem_flatMap.1 hm
  have := List.sizeOf_lt_of_mem hn
  cases n with
  | assignment target value =>
    simp only [Node.bindingParts, List.mem_cons, List.not_mem_nil, or_false] at hmn
    simp only [Node.assignment.sizeOf_spec] at this
    rcases hmn with rfl | rfl <;> omega
  | identifier name =>
    simp only [Node.bindingParts, List.mem_cons, List.not_mem_nil, or_false, or_self] at hmn
    subst hmn
    exact this
  | _ => exact absurd hmn List.not_mem_nil

lemma sizeOf_plainParts {n m : Node} (hm : m ∈ n.plainParts)
    (hmacroCall : ∀ name args, n ≠ .macroCall name args)
    (hmodule : ∀ name body, n ≠ .moduleBlock name body) : sizeOf m < sizeOf n := by
  have hlist {items : List Node} (h : m ∈ items) : sizeOf m < sizeOf items := List.sizeOf_lt_of_mem h
  cases n with
  | call callee args =>
    rw [Node.plainParts] at hm
    rw [Node.call.sizeOf_spec]
    split at hm
    · exact absurd hm List.not_mem_nil
    · exact sizeOf_callParts hm
  | comparison operands =>
    have hoperands : m ∈ operands := by
      unfold Node.plainParts at hm
      split at hm
      all_goals grind [Node.parts]
    grind
  | letBlock bindings body =>
    rw [Node.plainParts, List.mem_append, List.mem_singleton] at hm
    have hbindings : m ∈ bindings.flatMap Node.bindingParts → sizeOf m < sizeOf bindings := sizeOf_bindingParts
    grind
  | macroCall name args => exact absurd rfl (hmacroCall name args)
  | moduleBlock name body => exact absurd rfl (hmodule name body)
  | quote value => cases value <;> grind [Node.plainParts, Node.parts]
  | _ => grind [Node.plainParts, Node.parts]

lemma sizeOf_quotedParts {n m : Node} (hm : m ∈ n.quotedParts) : sizeOf m < sizeOf n := by
  have hlist {items : List Node} (h : m ∈ items) : sizeOf m < sizeOf items := List.sizeOf_lt_of_mem h
  cases n with
  | call callee args =>
    rw [Node.call.sizeOf_spec]
    exact sizeOf_callParts hm
  | function name params body =>
    rw [Node.quotedParts, List.mem_append, List.mem_singleton] at hm
    rw [Node.function.sizeOf_spec]
    rcases hm with hm | rfl
    · have hparts := sizeOf_callParts hm
      omega
    · omega
  | _ => grind [Node.quotedParts, Node.parts]

/-- A conversion visits smaller nodes only. -/
lemma sizeOf_visits {p : Place} {n : Node} {v : Place × Node} (hv : v ∈ n.visits p) : sizeOf v.2 < sizeOf n := by
  cases p with
  | plain top =>
    cases n with
    | macroCall name args =>
      obtain ⟨m, hm, rfl⟩ := List.mem_map.1 hv
      have hsize := List.sizeOf_lt_of_mem hm
      rw [Node.macroCall.sizeOf_spec]
      dsimp only
      omega
    | moduleBlock name body =>
      rw [Node.moduleBlock.sizeOf_spec]
      rcases List.mem_cons.1 hv with rfl | hv
      · dsimp only
        omega
      · obtain ⟨m, hm, rfl⟩ := List.mem_map.1 hv
        have hsize := List.sizeOf_lt_of_mem hm
        dsimp only
        omega
    | _ =>
      obtain ⟨m, hm, rfl⟩ := List.mem_map.1 hv
      exact sizeOf_plainParts hm nofun nofun
  | quoted =>
    cases n with
    | quote value =>
      obtain rfl := List.mem_singleton.1 hv
      rw [Node.quote.sizeOf_spec]
      dsimp only
      omega
    | _ =>
      obtain ⟨m, hm, rfl⟩ := List.mem_map.1 hv
      exact sizeOf_quotedParts hm

end Bilisp
