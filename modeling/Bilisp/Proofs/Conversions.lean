import Bilisp.Proofs.Spans
import Bilisp.Proofs.SymbolSpellings

/-!
# Nodes and forms that convert to each other

A node may stand at top level, inside another node, or in quoted mode (`Place`). There a node and a form match
when each is converted to the other and the form is one that a source can write (`Match`). Matching parts make
matching compounds, one lemma for each kind of form.
-/

namespace Bilisp

/-- Where a node or a form stands: in a program, at top level or not, or in the argument of a macro. -/
inductive Place where
  | plain (topLevel : Bool)
  | quoted
deriving DecidableEq

/-- Where the items of a collection stand. -/
def Place.inner : Place → Place
  | .plain _ => .plain false
  | .quoted => .quoted

/-- The form of a node at a place. -/
def Node.formAt : Place → Node → Except Fault Form
  | .plain topLevel, n => n.toForm topLevel
  | .quoted, n => n.toQuotedForm

/-- The forms of nodes at a place. -/
def Node.formsAt : Place → List Node → Except Fault (List Form)
  | .plain false, nodes => Node.toForms nodes
  | .plain true, nodes => Node.toTopForms nodes
  | .quoted, nodes => Node.toQuotedForms nodes

/-- The node of a form at a place. -/
def Form.nodeAt : Place → Form → Except Fault Node
  | .plain topLevel, f => f.toNode topLevel
  | .quoted, f => f.toQuotedNode

/-- The nodes of forms at a place. -/
def Form.nodesAt : Place → List Form → Except Fault (List Node)
  | .plain false, forms => Form.toNodes forms
  | .plain true, forms => Form.toTopNodes forms
  | .quoted, forms => Form.toQuotedNodes forms

/-- Whether a node and a form are converted to each other at a place, and a source can write the form. -/
structure Match (p : Place) (n : Node) (f : Form) : Prop where
  written : n.formAt p = .ok f
  read : f.nodeAt p = .ok n
  readable : f.Readable

/-! ## Lists of parts -/

lemma formsAt_cons (p : Place) (n : Node) (rest : List Node) :
    Node.formsAt p (n :: rest) = do return (← n.formAt p) :: (← Node.formsAt p rest) := by
  rcases p with (_ | _) | _ <;> rfl

lemma nodesAt_cons (p : Place) (f : Form) (rest : List Form) :
    Form.nodesAt p (f :: rest) = do return (← f.nodeAt p) :: (← Form.nodesAt p rest) := by
  rcases p with (_ | _) | _ <;> rfl

section

variable {p : Place} {pairs : List (Node × Form)} (h : ∀ q ∈ pairs, Match p q.1 q.2)

include h

lemma formsAt_pairs : Node.formsAt p (pairs.map Prod.fst) = .ok (pairs.map Prod.snd) := by
  induction pairs with
  | nil => rcases p with (_ | _) | _ <;> rfl
  | cons q rest ih =>
    rw [List.map_cons, formsAt_cons, (h q List.mem_cons_self).written,
      ih fun r hr => h r (List.mem_cons_of_mem _ hr)]
    rfl

lemma nodesAt_pairs : Form.nodesAt p (pairs.map Prod.snd) = .ok (pairs.map Prod.fst) := by
  induction pairs with
  | nil => rcases p with (_ | _) | _ <;> rfl
  | cons q rest ih =>
    rw [List.map_cons, nodesAt_cons, (h q List.mem_cons_self).read,
      ih fun r hr => h r (List.mem_cons_of_mem _ hr)]
    rfl

lemma allReadable_pairs : Form.AllReadable (pairs.map Prod.snd) := by
  rw [Form.allReadable_iff]
  intro f hf
  obtain ⟨q, hq, rfl⟩ := List.mem_map.1 hf
  exact (h q hq).readable

end

lemma readable_headed {name : Text} {forms : List Form} (hname : (Atom.symbol name).Readable)
    (hforms : Form.AllReadable forms) : (Form.headed name forms).Readable := ⟨nofun, hname, hforms⟩

/-! ## Collections -/

/-- The forms of the keys and values of dictionary entries at a place. -/
def Node.entryFormsAt : Place → List Node → Except Fault (List Form)
  | .plain _, nodes => Node.toEntryForms nodes
  | .quoted, nodes => Node.toQuotedEntryForms nodes

lemma entryFormsAt_cons (p : Place) (callee key value : Node) (rest : List Node) :
    Node.entryFormsAt p (.call callee [key, value] :: rest) = do
      let keyForm ← key.formAt p.inner
      let valueForm ← value.formAt p.inner
      return keyForm :: valueForm :: (← Node.entryFormsAt p rest) := by
  cases p with
  | plain top => exact Node.toEntryForms.eq_1 callee key value rest
  | quoted => exact Node.toQuotedEntryForms.eq_1 callee key value rest

lemma entryPairs?_entries (nodes : List Node) : ∃ found, Node.entryPairs? (Node.entries nodes) = some found := by
  fun_induction Node.entries nodes with
  | case1 key value rest ih =>
    obtain ⟨found, hfound⟩ := ih
    exact ⟨(key, value) :: found, by rw [Node.entryPairs?, if_pos rfl, hfound]; rfl⟩
  | case2 => exact ⟨[], rfl⟩

lemma literalShape?_dictionary (nodes : List Node) :
    literalShape? (.identifier "Dict") (Node.entries nodes) = some .map := by
  obtain ⟨found, hfound⟩ := entryPairs?_entries nodes
  rw [literalShape?, Node.dictPairs?, if_pos rfl, hfound]
  rfl

lemma literalShape?_setOf (items : List Node) : literalShape? (.identifier "Set") [.vector items] = some .set := by
  have hname : "Set".toList ≠ "Dict".toList := by decide
  rw [literalShape?, Node.dictPairs?, if_neg hname, Node.setItems?, if_pos rfl]
  rfl

lemma ratio?_entries (nodes : List Node) : ratio? (.identifier "Dict") (Node.entries nodes) = none := by
  fun_cases Node.entries nodes <;> rfl

/-- Induction on lists of even length, such as keys with their values, two items at a time. -/
theorem even_induction {α : Type} {motive : (items : List α) → items.length % 2 = 0 → Prop} (nil : motive [] rfl)
    (pair : ∀ first second rest (heven : rest.length % 2 = 0), motive rest heven →
      motive (first :: second :: rest) ((Nat.add_mod_right _ 2).trans heven)) :
    ∀ (items : List α) (heven : items.length % 2 = 0), motive items heven
  | [], _ => nil
  | [_], heven => nomatch heven
  | first :: second :: rest, heven => by
    have hrest : rest.length % 2 = 0 := (Nat.add_mod_right rest.length 2).symm.trans heven
    exact pair first second rest hrest (even_induction nil pair rest hrest)

lemma entryFormsAt_pairs {p : Place} {pairs : List (Node × Form)} (h : ∀ q ∈ pairs, Match p.inner q.1 q.2)
    (heven : pairs.length % 2 = 0) :
    Node.entryFormsAt p (Node.entries (pairs.map Prod.fst)) = .ok (pairs.map Prod.snd) := by
  induction pairs, heven using even_induction with
  | nil => cases p <;> rfl
  | pair q r rest _ ih =>
    have hrest : ∀ t ∈ rest, Match p.inner t.1 t.2 := fun t ht => h t (by simp [ht])
    rw [List.map_cons, List.map_cons, Node.entries, entryFormsAt_cons, (h q (by simp)).written,
      (h r (by simp)).written, ih hrest]
    rfl

section

variable {p : Place} {pairs : List (Node × Form)}

namespace Match

theorem vector (h : ∀ q ∈ pairs, Match p.inner q.1 q.2) :
    Match p (.vector (pairs.map Prod.fst)) (.vector (pairs.map Prod.snd)) := by
  refine ⟨?_, ?_, by simp, allReadable_pairs h⟩
  · have hforms := formsAt_pairs h
    cases p with
    | plain top =>
      change Node.toForms _ = _ at hforms
      rw [Node.formAt, Node.toForm, hforms]
      rfl
    | quoted =>
      change Node.toQuotedForms _ = _ at hforms
      rw [Node.formAt, Node.toQuotedForm, hforms]
      rfl
  · have hnodes := nodesAt_pairs h
    cases p with
    | plain top =>
      change Form.toNodes _ = _ at hnodes
      rw [Form.nodeAt, Form.vector, Form.toNode, hnodes]
      rfl
    | quoted =>
      change Form.toQuotedNodes _ = _ at hnodes
      rw [Form.nodeAt, Form.vector, Form.toQuotedNode, hnodes]
      rfl

theorem dictionary (h : ∀ q ∈ pairs, Match p.inner q.1 q.2) (heven : pairs.length % 2 = 0) :
    Match p (.dictionary (pairs.map Prod.fst)) (.compound .map (pairs.map Prod.snd) none) := by
  have hlength : ¬(pairs.map Prod.snd).length % 2 = 1 := by
    rw [List.length_map]
    omega
  refine ⟨?_, ?_, fun _ => by rwa [List.length_map], allReadable_pairs h⟩
  · have hforms := entryFormsAt_pairs h heven
    cases p with
    | plain top =>
      change Node.toEntryForms _ = _ at hforms
      rw [Node.formAt, Node.dictionary, Node.toForm, ratio?_entries, literalShape?_dictionary]
      dsimp only
      rw [hforms]
      rfl
    | quoted =>
      change Node.toQuotedEntryForms _ = _ at hforms
      rw [Node.formAt, Node.dictionary, Node.toQuotedForm, literalShape?_dictionary]
      dsimp only
      rw [hforms]
      rfl
  · have hnodes := nodesAt_pairs h
    cases p with
    | plain top =>
      change Form.toNodes _ = _ at hnodes
      rw [Form.nodeAt, Form.toNode, if_neg hlength, hnodes]
      rfl
    | quoted =>
      change Form.toQuotedNodes _ = _ at hnodes
      rw [Form.nodeAt, Form.toQuotedNode, if_neg hlength, hnodes]
      rfl

theorem setOf (h : ∀ q ∈ pairs, Match p.inner q.1 q.2) :
    Match p (.setOf (pairs.map Prod.fst)) (.compound .set (pairs.map Prod.snd) none) := by
  refine ⟨?_, ?_, by simp, allReadable_pairs h⟩
  · have hforms := formsAt_pairs h
    cases p with
    | plain top =>
      change Node.toForms _ = _ at hforms
      rw [Node.formAt, Node.setOf, Node.toForm, ratio?, literalShape?_setOf]
      · dsimp only
        rw [Node.toItemForms, hforms]
        rfl
      · simp
    | quoted =>
      change Node.toQuotedForms _ = _ at hforms
      rw [Node.formAt, Node.setOf, Node.toQuotedForm, literalShape?_setOf]
      dsimp only
      rw [Node.toQuotedItemForms, hforms]
      rfl
  · have hnodes := nodesAt_pairs h
    cases p with
    | plain top =>
      change Form.toNodes _ = _ at hnodes
      rw [Form.nodeAt, Form.toNode, hnodes]
      rfl
    | quoted =>
      change Form.toQuotedNodes _ = _ at hnodes
      rw [Form.nodeAt, Form.toQuotedNode, hnodes]
      rfl

end Match

end

/-! ## Special forms -/

lemma readable_specialName {name : Text} {special : SpecialForm} (h : SpecialForm.ofName? name = some special) :
    (Atom.symbol name).Readable := by
  have hnames : (specialForms.map Prod.fst).all (fun name => isSymbolToken name && name != "nil".toList &&
    name != "true".toList && name != "false".toList) = true := by decide
  obtain ⟨entry, hentry, -⟩ := Option.map_eq_some_iff.1 h
  have hname : entry.1 = name := by simpa using List.find?_some hentry
  have hall := List.all_eq_true.1 hnames _ (List.mem_map_of_mem (List.mem_of_find?_eq_some hentry))
  simp only [hname, Bool.and_eq_true, bne_iff_ne] at hall
  exact ⟨lexemes?_eq_symbol_iff.2 hall.1.1.1, hall.1.1.2, hall.1.2, hall.2⟩

/-- A list that the name of a special form leads is converted by the rule of the special form. -/
lemma toNode_headed {name : Text} {special : SpecialForm} (h : SpecialForm.ofName? name = some special)
    (args : List Form) (top : Bool) :
    (Form.headed name args).toNode top =
      Form.toSpecialNode top (Form.headed name args) special (Form.symbol name :: args) := by
  rw [Form.headed, Form.list, Form.toNode, Form.symbol, Form.head?]
  dsimp only
  rw [h]

/-- The special forms that hold nothing but a list of parts. -/
inductive Listing where
  | tuple
  | imports
  | uses
  | exports
  | curly
  | conjunction
  | disjunction
deriving DecidableEq

namespace Listing

/-- The name that leads the list. -/
def name : Listing → Text
  | .tuple => "tuple"
  | .imports => "import"
  | .uses => "use"
  | .exports => "export"
  | .curly => "curly"
  | .conjunction => "and"
  | .disjunction => "or"

/-- The special form that the name leads. -/
def special : Listing → SpecialForm
  | .tuple => .tuple
  | .imports => .importing
  | .uses => .using
  | .exports => .exporting
  | .curly => .curly
  | .conjunction => .conjunction
  | .disjunction => .disjunction

/-- The node of the list. -/
def node : Listing → List Node → Node
  | .tuple => .tuple
  | .imports => .importNames
  | .uses => .usingNames
  | .exports => .exportNames
  | .curly => .curly
  | .conjunction => .conjunction
  | .disjunction => .disjunction

/-- Whether the list may lack parts. -/
def MayBeEmpty (kind : Listing) : Prop := kind = .conjunction ∨ kind = .disjunction

lemma ofName?_name (kind : Listing) : SpecialForm.ofName? kind.name = some kind.special := by
  cases kind <;> rfl

lemma toSpecialNode_eq (kind : Listing) {args : List Form} (hne : args ≠ [] ∨ kind.MayBeEmpty)
    (top : Bool) (whole head : Form) :
    Form.toSpecialNode top whole kind.special (head :: args) = kind.node <$> Form.toNodes args := by
  cases kind with
  | tuple => rfl
  | conjunction => rfl
  | disjunction => rfl
  | _ =>
    have hfull : ¬args.isEmpty = true := by
      rw [List.isEmpty_iff]
      exact hne.resolve_right (by simp [MayBeEmpty])
    rw [special, Form.toSpecialNode, if_neg hfull]
    rfl

lemma toForm_eq (kind : Listing) {parts : List Node} (hne : parts ≠ [] ∨ kind.MayBeEmpty) (top : Bool) :
    (kind.node parts).toForm top = Form.headed kind.name <$> Node.toForms parts := by
  cases kind with
  | tuple =>
    rw [node, Node.toForm]
    · rfl
    · exact hne.resolve_right (by simp [MayBeEmpty])
  | _ => rfl

end Listing

section

variable {top : Bool}

namespace Match

lemma toForm {n : Node} {f : Form} (h : Match (.plain top) n f) : n.toForm top = .ok f := h.written

lemma toNode {n : Node} {f : Form} (h : Match (.plain top) n f) : f.toNode top = .ok n := h.read

lemma ofSpecial {name : Text} {special : SpecialForm} {args : List Form} {n : Node}
    (hname : SpecialForm.ofName? name = some special) (hargs : Form.AllReadable args)
    (hwritten : n.toForm top = .ok (.headed name args))
    (hread : Form.toSpecialNode top (.headed name args) special (.symbol name :: args) = .ok n) :
    Match (.plain top) n (.headed name args) :=
  ⟨hwritten, (toNode_headed hname args top).trans hread, readable_headed (readable_specialName hname) hargs⟩

end Match

lemma toBindingForms_assignments {pairs : List (Node × Form)}
    (h : ∀ q ∈ pairs, Match (.plain false) q.1 q.2) (heven : pairs.length % 2 = 0) :
    Node.toBindingForms (assignments (pairs.map Prod.fst)) = .ok (pairs.map Prod.snd) := by
  induction pairs, heven using even_induction with
  | nil => rfl
  | pair q r rest _ ih =>
    have hrest : ∀ t ∈ rest, Match (.plain false) t.1 t.2 := fun t ht => h t (by simp [ht])
    rw [List.map_cons, List.map_cons, assignments, Node.toBindingForms, (h q (by simp)).toForm,
      (h r (by simp)).toForm, ih hrest]
    rfl

section

variable {pairs : List (Node × Form)} (h : ∀ q ∈ pairs, Match (.plain false) q.1 q.2)

include h

lemma toForms_pairs : Node.toForms (pairs.map Prod.fst) = .ok (pairs.map Prod.snd) := formsAt_pairs h

lemma toNodes_pairs : Form.toNodes (pairs.map Prod.snd) = .ok (pairs.map Prod.fst) := nodesAt_pairs h

namespace Match

theorem listing (kind : Listing) (hne : pairs ≠ [] ∨ kind.MayBeEmpty) :
    Match (.plain top) (kind.node (pairs.map Prod.fst)) (.headed kind.name (pairs.map Prod.snd)) := by
  refine ofSpecial kind.ofName?_name (allReadable_pairs h) ?_ ?_
  · rw [kind.toForm_eq (by simpa using hne), toForms_pairs h]
    rfl
  · rw [kind.toSpecialNode_eq (by simpa using hne), toNodes_pairs h]
    rfl

theorem block (hlength : 2 ≤ pairs.length) :
    Match (.plain top) (.block (pairs.map Prod.fst)) (.headed "do" (pairs.map Prod.snd)) := by
  have hforms := toForms_pairs h
  have hnodes := toNodes_pairs h
  obtain ⟨q, r, rest, rfl⟩ := exists_cons_cons hlength
  rw [List.map_cons, List.map_cons] at hforms ⊢
  refine ofSpecial rfl (allReadable_pairs h) ?_ ?_
  · rw [Node.toForm, hforms]
    · rfl
    · simp
    · simp
  · rw [Form.toSpecialNode, hnodes]
    rfl

/-- The conversion of a subscript converts the collection before the indices. -/
theorem subscript {n : Node} {f : Form} (hn : Match (.plain false) n f) :
    Match (.plain top) (.subscript n (pairs.map Prod.fst)) (.headed "aget" (f :: pairs.map Prod.snd)) := by
  refine ofSpecial rfl ⟨hn.readable, allReadable_pairs h⟩ ?_ ?_
  · rw [Node.toForm, hn.toForm, toForms_pairs h]
    rfl
  · rw [Form.toSpecialNode, hn.toNode, toNodes_pairs h]
    rfl

/-- A range of two or three parts. Two parts of which the second is named `end` are written without it. -/
theorem range (hlength : pairs.length = 2 ∨ pairs.length = 3)
    (hopen : ∀ start, pairs.map Prod.fst ≠ [start, .identifier "end"]) :
    Match (.plain top) (.range (pairs.map Prod.fst)) (.headed ":" (pairs.map Prod.snd)) := by
  have hforms := toForms_pairs h
  have hnodes := toNodes_pairs h
  have hreadable := allReadable_pairs h
  rcases hlength with hlength | hlength
  · obtain ⟨q, r, rfl⟩ := List.length_eq_two.1 hlength
    refine ofSpecial rfl hreadable ?_ (by rw [Form.toSpecialNode, hnodes]; rfl)
    by_cases hname : ∃ name, r.1 = .identifier name
    · obtain ⟨name, hname⟩ := hname
      have hend : name ≠ "end".toList := by
        rintro rfl
        exact hopen q.1 (by rw [← hname]; rfl)
      have hr := (h r (by simp)).toForm
      rw [hname, Node.toForm] at hr
      rw [List.map_cons, List.map_cons, List.map_nil, hname, Node.toForm, (h q (by simp)).toForm, if_neg hend]
      rw [List.map_cons, List.map_cons, List.map_nil, ← Except.ok.inj hr]
      rfl
    · rw [Node.toForm, hforms]
      · rfl
      · intro start name heq
        obtain ⟨-, heq⟩ := List.cons.inj heq
        exact hname ⟨name, (List.cons.inj heq).1⟩
  · obtain ⟨q, r, t, rfl⟩ := List.length_eq_three.1 hlength
    refine ofSpecial rfl hreadable ?_ (by rw [Form.toSpecialNode, hnodes]; rfl)
    rw [Node.toForm, hforms]
    · rfl
    · simp

theorem letBlock {n : Node} {f : Form} (heven : pairs.length % 2 = 0) (hn : Match (.plain false) n f) :
    Match (.plain top) (.letBlock (assignments (pairs.map Prod.fst)) n)
      (.headed "let" [.vector (pairs.map Prod.snd), f]) := by
  have hlength : ¬(pairs.map Prod.snd).length % 2 = 1 := by
    rw [List.length_map]
    omega
  refine ofSpecial rfl ⟨⟨nofun, allReadable_pairs h⟩, hn.readable, trivial⟩ ?_ ?_
  · rw [Node.toForm, toBindingForms_assignments h heven, hn.toForm]
    rfl
  · rw [Form.vector, Form.toSpecialNode, if_neg hlength, toNodes_pairs h, Form.toNodes, hn.toNode]
    rfl

theorem lambda {n : Node} {f : Form} (hn : Match (.plain false) n f) :
    Match (.plain top) (.lambda (pairs.map Prod.fst) n) (.headed "fn" [.vector (pairs.map Prod.snd), f]) := by
  refine ofSpecial rfl ⟨⟨nofun, allReadable_pairs h⟩, hn.readable, trivial⟩ ?_ ?_
  · rw [Node.toForm, toForms_pairs h, hn.toForm]
    rfl
  · rw [Form.vector, Form.toSpecialNode, toNodes_pairs h, Form.toNodes, hn.toNode]
    rfl

/-- A function with at least one statement, of which one alone must not be taken for several. At top level it
becomes a definition; elsewhere its name must not be taken for the parameters. -/
theorem function {name : Node} {nameForm : Form} {statements : List (Node × Form)}
    (hname : Match (.plain false) name nameForm) (hstatements : ∀ q ∈ statements, Match (.plain false) q.1 q.2)
    (hne : statements ≠ []) (hsingle : ∀ q, statements = [q] → splicedBody q.2 = [q.2])
    (hvector : top = true ∨ ∀ items span, nameForm ≠ .compound .vector items span) :
    Match (.plain top) (.function name (pairs.map Prod.fst) (.sequence (statements.map Prod.fst)))
      (.headed (if top then "defn" else "fn")
        (nameForm :: .vector (pairs.map Prod.snd) :: statements.map Prod.snd)) := by
  have hbody : ∃ f, (Node.sequence (statements.map Prod.fst)).toForm false = .ok f ∧
      splicedBody f = statements.map Prod.snd := by
    match statements with
    | [] => exact absurd rfl hne
    | [q] => exact ⟨q.2, (hstatements q (by simp)).toForm, hsingle q rfl⟩
    | q :: r :: rest => exact ⟨_, (block hstatements (by simp)).toForm, rfl⟩
  obtain ⟨f, hf, hspliced⟩ := hbody
  have hreadable : Form.AllReadable (nameForm :: .vector (pairs.map Prod.snd) :: statements.map Prod.snd) :=
    ⟨hname.readable, ⟨nofun, allReadable_pairs h⟩, allReadable_pairs hstatements⟩
  have hwritten : (Node.function name (pairs.map Prod.fst) (.sequence (statements.map Prod.fst))).toForm top =
      .ok (.headed (if top then "defn" else "fn")
        (nameForm :: .vector (pairs.map Prod.snd) :: statements.map Prod.snd)) := by
    rw [Node.toForm, hname.toForm, toForms_pairs h, hf, ← hspliced]
    rfl
  cases top with
  | true =>
    refine ofSpecial rfl hreadable hwritten ?_
    rw [Form.vector, Form.toSpecialNode, hname.toNode, toNodes_pairs h, toNodes_pairs hstatements]
    rfl
  | false =>
    refine ofSpecial rfl hreadable hwritten ?_
    rw [Form.vector, Form.toSpecialNode, hname.toNode, toNodes_pairs h, toNodes_pairs hstatements]
    · rfl
    · exact hvector.resolve_left Bool.false_ne_true

/-- An ascription that no symbol spells. -/
theorem ascription (hne : pairs ≠ [])
    (hsymbol : ascriptionSymbol? (pairs.map Prod.fst) (pairs.map Prod.snd) = none) :
    Match (.plain top) (.ascription (pairs.map Prod.fst)) (.headed "::" (pairs.map Prod.snd)) := by
  have hfull : ¬(pairs.map Prod.snd).isEmpty = true := by
    rwa [List.isEmpty_iff, List.map_eq_nil_iff]
  refine ofSpecial rfl (allReadable_pairs h) ?_ ?_
  · rw [Node.toForm, toForms_pairs h]
    change Except.ok (ascriptionForm _ _) = _
    rw [ascriptionForm, hsymbol]
    rfl
  · rw [Form.toSpecialNode, if_neg hfull, toNodes_pairs h]
    rfl

end Match

end

section

variable {n m : Node} {f g : Form}

namespace Match

theorem quote (hn : ∀ name, n ≠ .identifier name) (h : Match (.plain false) n f) :
    Match (.plain top) (.quote n) (.headed "quote" [f]) := by
  refine ofSpecial rfl ⟨h.readable, trivial⟩ ?_ ?_
  · rw [Node.toForm, h.toForm]
    · rfl
    · exact hn
  · rw [Form.toSpecialNode, h.toNode]
    rfl

theorem interpolate (h : Match (.plain false) n f) :
    Match (.plain top) (.interpolate n) (.headed "unquote" [f]) := by
  refine ofSpecial rfl ⟨h.readable, trivial⟩ ?_ ?_
  · rw [Node.toForm, h.toForm]
    rfl
  · rw [Form.toSpecialNode, h.toNode]
    rfl

theorem ifThen (hn : Match (.plain false) n f) (hm : Match (.plain false) m g) :
    Match (.plain top) (.ifThen n m) (.headed "if" [f, g]) := by
  refine ofSpecial rfl ⟨hn.readable, hm.readable, trivial⟩ ?_ ?_
  · rw [Node.toForm, hn.toForm, hm.toForm]
    rfl
  · rw [Form.toSpecialNode, hn.toNode, hm.toNode]
    rfl

theorem ifElse {k : Node} {e : Form} (hn : Match (.plain false) n f) (hm : Match (.plain false) m g)
    (hk : Match (.plain false) k e) : Match (.plain top) (.ifElse n m k) (.headed "if" [f, g, e]) := by
  refine ofSpecial rfl ⟨hn.readable, hm.readable, hk.readable, trivial⟩ ?_ ?_
  · rw [Node.toForm, hn.toForm, hm.toForm, hk.toForm]
    rfl
  · rw [Form.toSpecialNode, hn.toNode, hm.toNode, hk.toNode]
    rfl

theorem assignment (hn : Match (.plain false) n f) (hm : Match (.plain false) m g) :
    Match (.plain true) (.assignment n m) (.headed "def" [f, g]) := by
  refine ofSpecial rfl ⟨hn.readable, hm.readable, trivial⟩ ?_ ?_
  · rw [Node.toForm, hn.toForm, hm.toForm]
    rfl
  · rw [Form.toSpecialNode, hn.toNode, hm.toNode]
    rfl

/-- A range without an end. -/
theorem openRange (h : Match (.plain false) n f) :
    Match (.plain top) (.range [n, .identifier "end"]) (.headed ":" [f]) := by
  refine ofSpecial rfl ⟨h.readable, trivial⟩ ?_ ?_
  · rw [Node.toForm, h.toForm]
    rfl
  · rw [Form.toSpecialNode, Form.toNodes, h.toNode]
    rfl

theorem moduleBlock {body : List (Node × Form)} (hn : Match (.plain false) n f)
    (hbody : ∀ q ∈ body, Match (.plain true) q.1 q.2) :
    Match (.plain top) (.moduleBlock n (body.map Prod.fst)) (.headed "module" (f :: body.map Prod.snd)) := by
  have hforms : Node.toTopForms _ = _ := formsAt_pairs hbody
  have hnodes : Form.toTopNodes _ = _ := nodesAt_pairs hbody
  refine ofSpecial rfl ⟨hn.readable, allReadable_pairs hbody⟩ ?_ ?_
  · rw [Node.toForm, hn.toForm, hforms]
    rfl
  · rw [Form.toSpecialNode, hn.toNode, hnodes]
    rfl

/-- A field of a form that shares no symbol with its fields. -/
theorem field {name segment : Text} (hn : Match (.plain false) n f) (hpair : NamePair name segment)
    (hform : fieldForm f segment = .headed "." [f, .symbol segment])
    (hreadable : (Atom.symbol segment).Readable) :
    Match (.plain top) (.dotAccess n name) (.headed "." [f, .symbol segment]) := by
  have hne : [segment].any List.isEmpty = false := by simpa using segment_ne_nil hpair.isSegment
  refine ofSpecial rfl ⟨hn.readable, hreadable, trivial⟩ ?_ ?_
  · rw [Node.toForm, hn.toForm, hpair.unescape, ← hform]
    rfl
  · rw [Form.symbol, Form.toSpecialNode, splitPath_segment (all_isSegmentChar hpair.isSegment), hn.toNode,
      ← hpair.escape]
    dsimp only
    rw [hne, if_neg Bool.false_ne_true]
    rfl

/-- A field of a field, which both share one symbol. -/
theorem fields {name segment last : Text} (hn : Match (.plain false) n (.headed "." [f, .symbol last]))
    (hpair : NamePair name segment) (hreadable : (Atom.symbol (last ++ "." ++ segment)).Readable) :
    Match (.plain top) (.dotAccess n name) (.headed "." [f, .symbol (last ++ "." ++ segment)]) := by
  have hne : segment.isEmpty = false := by simpa using segment_ne_nil hpair.isSegment
  have hsplit : splitPath (last ++ "." ++ segment) = splitPath last ++ [segment] := by
    rw [List.append_assoc]
    change splitPath (last ++ '.' :: segment) = _
    rw [splitPath_append (.inl rfl), splitPath_segment (all_isSegmentChar hpair.isSegment)]
  obtain ⟨-, -, hf, -, -⟩ := hn.readable
  refine ofSpecial rfl ⟨hf, hreadable, trivial⟩ ?_ ?_
  · rw [Node.toForm, hn.toForm, hpair.unescape]
    change Except.ok (fieldForm (.headed _ _) _) = _
    rw [Form.headed, Form.list, Form.symbol, Form.symbol, fieldForm, if_pos rfl]
    rfl
  · have hread := hn.toNode
    rw [toNode_headed rfl, Form.symbol, Form.toSpecialNode] at hread
    rw [Form.symbol, Form.toSpecialNode, hsplit, ← hpair.escape]
    dsimp only at hread ⊢
    rw [List.any_append, List.any_cons, List.any_nil, hne, Bool.or_false, Bool.or_false]
    split at hread
    · cases hread
    next hfull =>
      rw [if_neg hfull]
      cases hbase : f.toNode false with
      | error fault =>
        rw [hbase] at hread
        cases hread
      | ok base =>
        rw [hbase] at hread
        rw [← Except.ok.inj hread]
        change Except.ok (List.foldl _ base (splitPath last ++ [segment])) = _
        rw [List.foldl_append]
        rfl

end Match

end

end

/-! ## Calls -/

/-- Whether a list that the form leads is a call. -/
def Form.LeadsCall : Form → Prop
  | .atom (.symbol name) _ =>
    SpecialForm.ofName? name = none ∧ ¬(name.head? = some '@' ∧ 1 < name.length)
  | .atom _ _ => False
  | .compound _ _ _ => True

lemma ofName?_of_head {name : Text} (h : name.head? = some '@') : SpecialForm.ofName? name = none := by
  have hnames : (specialForms.map Prod.fst).all (fun name => name.head? != some '@') = true := by decide
  rw [SpecialForm.ofName?, Text.assoc?, Option.map_eq_none_iff, List.find?_eq_none]
  intro entry hentry heq
  have hne := List.all_eq_true.1 hnames _ (List.mem_map_of_mem hentry)
  rw [beq_iff_eq] at heq
  rw [heq, h] at hne
  cases hne

lemma toNode_call {f : Form} (hleads : f.LeadsCall) (args : List Form) (span : Option Span) (top : Bool) :
    (Form.compound .list (f :: args) span).toNode top =
      (do return .call (← f.toNode false) (← Form.toNodes args)) := by
  rw [Form.toNode]
  cases f with
  | compound shape elements place => rfl
  | atom value place =>
    cases value with
    | symbol name =>
      obtain ⟨hspecial, hmacroCall⟩ := hleads
      rw [Form.head?]
      dsimp only
      rw [hspecial]
      dsimp only
      rw [if_neg hmacroCall]
    | _ => exact hleads.elim

section

variable {top : Bool} {pairs : List (Node × Form)}

namespace Match

/-- A call that is no ratio, no dictionary and no set. -/
theorem call {n : Node} {f : Form} (hn : Match (.plain false) n f) (hleads : f.LeadsCall)
    (hargs : ∀ q ∈ pairs, Match (.plain false) q.1 q.2) (hratio : ratio? n (pairs.map Prod.fst) = none)
    (hshape : literalShape? n (pairs.map Prod.fst) = none) :
    Match (.plain top) (.call n (pairs.map Prod.fst)) (.list (f :: pairs.map Prod.snd)) := by
  refine ⟨?_, ?_, by simp, hn.readable, allReadable_pairs hargs⟩
  · change Node.toForm top _ = _
    rw [Node.toForm, hratio, hshape]
    dsimp only
    rw [hn.toForm, toForms_pairs hargs]
    rfl
  · change Form.toNode top _ = _
    rw [Form.list, toNode_call hleads, hn.toNode, toNodes_pairs hargs]
    rfl

/-- A macro call, of which the symbol begins with an `@`. -/
theorem macroCall {name symbol : Text} (hescape : escapeSymbol symbol = name)
    (hform : nameForm name = .symbol symbol) (hreadable : (Atom.symbol symbol).Readable)
    (hhead : symbol.head? = some '@') (hlength : 1 < symbol.length)
    (hargs : ∀ q ∈ pairs, Match .quoted q.1 q.2) :
    Match (.plain top) (.macroCall name (pairs.map Prod.fst)) (.headed symbol (pairs.map Prod.snd)) := by
  have hforms : Node.toQuotedForms _ = _ := formsAt_pairs hargs
  have hnodes : Form.toQuotedNodes _ = _ := nodesAt_pairs hargs
  refine ⟨?_, ?_, readable_headed hreadable (allReadable_pairs hargs)⟩
  · change Node.toForm top _ = _
    rw [Node.toForm, hforms, hform]
    rfl
  · change Form.toNode top _ = _
    rw [Form.headed, Form.list, Form.symbol, Form.toNode, Form.head?, hnodes, ← hescape]
    dsimp only
    rw [ofName?_of_head hhead]
    dsimp only
    rw [if_pos ⟨hhead, hlength⟩]
    rfl

/-- An unevaluated expression, which has a head that is neither the quotation nor the tuple. -/
theorem raw {head symbol : Text} (hescape : escapeSymbol symbol = head) (hform : nameForm head = .symbol symbol)
    (hreadable : (Atom.symbol symbol).Readable) (hquote : symbol ≠ "quote".toList)
    (htuple : symbol ≠ "tuple".toList) (hargs : ∀ q ∈ pairs, Match .quoted q.1 q.2) :
    Match .quoted (.raw head (pairs.map Prod.fst)) (.headed symbol (pairs.map Prod.snd)) := by
  have hforms : Node.toQuotedForms _ = _ := formsAt_pairs hargs
  have hnodes : Form.toQuotedNodes _ = _ := nodesAt_pairs hargs
  refine ⟨?_, ?_, readable_headed hreadable (allReadable_pairs hargs)⟩
  · change Node.toQuotedForm _ = _
    rw [Node.toQuotedForm, hforms, hform]
    rfl
  · change Form.toQuotedNode _ = _
    rw [Form.headed, Form.list, Form.symbol, toQuotedNode_raw _ _ _ hquote htuple, hnodes, hescape]
    rfl

theorem quotedTuple (hargs : ∀ q ∈ pairs, Match .quoted q.1 q.2) :
    Match .quoted (.tuple (pairs.map Prod.fst)) (.headed "tuple" (pairs.map Prod.snd)) := by
  have hforms : Node.toQuotedForms _ = _ := formsAt_pairs hargs
  have hnodes : Form.toQuotedNodes _ = _ := nodesAt_pairs hargs
  refine ⟨?_, ?_, readable_headed (readable_specialName rfl) (allReadable_pairs hargs)⟩
  · change Node.toQuotedForm _ = _
    rw [Node.toQuotedForm, hforms]
    rfl
  · change Form.toQuotedNode _ = _
    rw [Form.headed, Form.list, Form.symbol, toQuotedNode_tuple, hnodes]
    rfl

theorem emptyTuple : Match (.plain top) (.tuple []) (.list []) := by
  refine ⟨?_, ?_, nofun, trivial⟩
  · change Node.toForm top _ = _
    rw [Node.toForm]
    rfl
  · change Form.toNode top _ = _
    rw [Form.list, Form.toNode]
    rfl

end Match

end

/-! ## Atoms -/

namespace Match

theorem literal {p : Place} {value : Literal} (h : value.form.Readable) : Match p (.literal value) value.form := by
  refine ⟨by cases p <;> rfl, ?_, h⟩
  cases p <;> cases value <;> rfl

theorem symbol {p : Place} {n : Node} {s : Text} (hwritten : n.formAt p = .ok (.symbol s))
    (hnode : symbolNode? s = some n) (hreadable : (Atom.symbol s).Readable) : Match p n (.symbol s) := by
  refine ⟨hwritten, ?_, hreadable⟩
  cases p with
  | plain top => rw [Form.nodeAt, Form.symbol, Form.toNode, atomNode, hnode]
  | quoted =>
    rw [Form.nodeAt, Form.symbol, Form.toQuotedNode, atomNode, hnode]
    simp

theorem keyword {top : Bool} {name key : Text} (hescape : escapeSymbol key = name)
    (hform : keywordForm name = .atom (.keyword key) none) (hreadable : (Atom.keyword key).Readable) :
    Match (.plain top) (.quote (.identifier name)) (.atom (.keyword key) none) := by
  refine ⟨?_, ?_, hreadable⟩
  · rw [Node.formAt, Node.toForm, hform]
    rfl
  · rw [Form.nodeAt, Form.toNode, atomNode, hescape]
    rfl

end Match

end Bilisp
