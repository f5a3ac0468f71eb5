import Bilisp.Proofs.Endings
import Bilisp.Proofs.Reachability
import Bilisp.Proofs.Readings
import Bilisp.Proofs.SymbolNodes

/-!
# The grammar of forms

A form that was read from a source has a node exactly if no form in it is malformed where it is converted
(`toNode_fails_iff`). The malformed forms are given by the symbols that lead lists and by the number and the shape of
the elements behind them (`Form.Malformed`), and not by the rules of the conversion.
-/

namespace Bilisp

/-! ## Malformed forms -/

/-- The lists of which the elements are counted, by the symbols that lead them, with the least and the greatest number
of elements. The symbol counts too. -/
def elementCounts : List (Text × Nat × Option Nat) :=
  [("if", 3, some 4), ("quote", 2, some 2), ("quasiquote", 2, some 2), ("unquote", 2, some 2), ("let", 2, none),
   ("fn", 2, none), ("defn", 3, none), ("def", 3, some 3), ("aget", 2, none), ("module", 2, none),
   ("import", 2, none), ("use", 2, none), ("export", 2, none), ("::", 2, none), ("curly", 2, none),
   (":", 2, some 4), (".", 3, some 3)]

namespace Form

/-- Whether a form is a vector. -/
def isVector : Form → Bool
  | .compound .vector _ _ => true
  | _ => false

/-- The forms that have no node where they are converted, whatever stands in them. -/
@[mk_iff]
inductive Malformed : Place → Form → Prop
  | callee {top : Bool} {value : Atom} {place span : Option Span} {args : List Form}
    (h : ∀ name, value ≠ .symbol name) : Malformed (.plain top) (.compound .list (.atom value place :: args) span)
  | count {top : Bool} {f : Form} {name : Text} {least : Nat} {greatest : Option Nat} (hhead : f.head? = some name)
    (hcount : (name, least, greatest) ∈ elementCounts)
    (h : f.elements.length < least ∨ ∃ most ∈ greatest, most < f.elements.length) : Malformed (.plain top) f
  | splicing {top : Bool} {f : Form} (hhead : f.head? = some "unquote-splicing".toList) : Malformed (.plain top) f
  | bindings {top : Bool} {f bindings : Form} (hhead : f.head? = some "let".toList)
    (hbindings : f.elements[1]? = some bindings)
    (h : bindings.isVector = false ∨ bindings.elements.length % 2 = 1) : Malformed (.plain top) f
  | params {top : Bool} {f params : Form} (hhead : f.head? = some "fn".toList)
    (hparams : f.elements[1]? = some params) (h : params.isVector = false)
    (hothers : ∀ others ∈ f.elements[2]?, others.isVector = false) : Malformed (.plain top) f
  | namedParams {top : Bool} {f params : Form} (hhead : f.head? = some "defn".toList)
    (hparams : f.elements[2]? = some params) (h : params.isVector = false) : Malformed (.plain top) f
  | definition {f : Form} (hhead : f.head? = some "def".toList) : Malformed (.plain false) f
  | field {top : Bool} {f field : Form} (hhead : f.head? = some ".".toList) (hfield : f.elements[2]? = some field)
    (h : ∀ name span, field = .atom (.symbol name) span → [] ∈ splitPath name) : Malformed (.plain top) f
  | quotation {f : Form} (hhead : f.head? = some "quote".toList) (h : f.elements.length ≠ 2) : Malformed .quoted f

/-- The arguments of a list that a symbol leads, with the places where they are converted. -/
def argumentPlaces (name : Text) (args : List Form) : Place → List (Place × Form)
  | .plain _ =>
    if name = "module".toList then
      (args.take 1).map (Prod.mk (.plain false)) ++ (args.drop 1).map (Prod.mk (.plain true))
    else if name.head? = some '@' ∧ 1 < name.length then args.map (Prod.mk .quoted)
    else args.map (Prod.mk (.plain false))
  | .quoted => if name = "quote".toList then args.map (Prod.mk (.plain false)) else args.map (Prod.mk .quoted)

/-- The forms inside a form with the places where they are converted. Forms of a module have the place of forms of a
program. Arguments of a macro call are quoted, with everything in them, and a quotation ends this. -/
def members : Place × Form → List (Place × Form)
  | (p, f) =>
    match f.head? with
    | some name => argumentPlaces name f.elements.tail p
    | none => f.elements.map (Prod.mk p.inner)

/-- Whether a form has a node at a place. -/
def Convertible (p : Place) (f : Form) : Prop := ∃ n, f.nodeAt p = .ok n

/-- Whether the symbols among forms have nodes. -/
def SoundSymbols (forms : List Form) : Prop :=
  ∀ name span, .atom (.symbol name) span ∈ forms → symbolNode? name ≠ none

/-- Whether a form is sound as far as it is no matter of lists: an atom has a node, a map holds keys and values, and
the symbols among the elements have nodes. -/
def Sound : Form → Prop
  | .atom value _ => ∀ span, ∃ n, atomNode value span = .ok n
  | .compound shape elements _ => (shape = .map → elements.length % 2 = 0) ∧ SoundSymbols elements

end Form

lemma exists_symbolAtomNode {name : Text} (h : symbolNode? name ≠ none) (span : Option Span) :
    ∃ n, atomNode (.symbol name) span = .ok n := by
  obtain ⟨n, hn⟩ := Option.ne_none_iff_exists'.1 h
  exact ⟨n, by rw [atomNode, hn]⟩

/-- Forms that a source can write are sound. -/
lemma Form.Readable.sound {f : Form} (hf : f.Readable) : f.Sound := by
  cases f with
  | atom value span => exact exists_atomNode hf
  | compound shape elements span =>
    refine ⟨hf.1, fun name place hmem hnone => ?_⟩
    have hname : (Atom.symbol name).Readable := Form.allReadable_iff.1 hf.2 _ hmem
    obtain ⟨n, hn⟩ := exists_atomNode hname place
    rw [atomNode, hnone] at hn
    cases hn

/-! ## Results -/

section

variable {α β : Type}

@[simp] lemma exists_bind_eq_ok {x : Except Fault α} {k : α → Except Fault β} :
    (∃ b, x >>= k = .ok b) ↔ ∃ a, x = .ok a ∧ ∃ b, k a = .ok b := by
  simp only [bind_eq_ok]
  exact ⟨fun ⟨b, a, ha, hb⟩ => ⟨a, ha, b, hb⟩, fun ⟨a, ha, b, hb⟩ => ⟨b, a, ha, hb⟩⟩

@[simp] lemma exists_map_eq_ok {x : Except Fault α} {k : α → β} :
    (∃ b, k <$> x = .ok b) ↔ ∃ a, x = .ok a := by
  cases x with
  | error fault => exact iff_of_false nofun nofun
  | ok a => exact iff_of_true ⟨k a, rfl⟩ ⟨a, rfl⟩

end

section

variable {forms : List Form}

lemma exists_nodesAt_iff {p : Place} :
    (∃ nodes, Form.nodesAt p forms = .ok nodes) ↔ ∀ f ∈ forms, f.Convertible p := by
  induction forms with
  | nil => rcases p with (_ | _) | _ <;> exact iff_of_true ⟨[], rfl⟩ (by simp)
  | cons f rest ih => simp [nodesAt_cons, ih, Form.Convertible]

@[simp] lemma exists_toNodes_iff :
    (∃ nodes, Form.toNodes forms = .ok nodes) ↔ ∀ f ∈ forms, f.Convertible (.plain false) :=
  exists_nodesAt_iff (p := .plain false)

@[simp] lemma exists_toTopNodes_iff :
    (∃ nodes, Form.toTopNodes forms = .ok nodes) ↔ ∀ f ∈ forms, f.Convertible (.plain true) :=
  exists_nodesAt_iff (p := .plain true)

@[simp] lemma exists_toQuotedNodes_iff :
    (∃ nodes, Form.toQuotedNodes forms = .ok nodes) ↔ ∀ f ∈ forms, f.Convertible .quoted :=
  exists_nodesAt_iff (p := .quoted)

end

lemma exists_toNode_iff {top : Bool} {f : Form} : (∃ n, f.toNode top = .ok n) ↔ f.Convertible (.plain top) :=
  Iff.rfl

@[simp] lemma elements_compound (shape : Shape) (elements : List Form) (span : Option Span) :
    (Form.compound shape elements span).elements = elements := rfl

/-! ## Special forms -/

/-- What a special form wants of its arguments. -/
def SpecialForm.Accepts (top : Bool) (special : SpecialForm) (args : List Form) : Prop :=
  match special with
  | .sequence | .tuple | .conjunction | .disjunction => True
  | .conditional => args.length = 2 ∨ args.length = 3
  | .quoting _ | .unquoting => args.length = 1
  | .splicing => False
  | .letBlock =>
    ∃ bindings body, args = bindings :: body ∧ bindings.isVector = true ∧ bindings.elements.length % 2 = 0
  | .function => (∃ params body, args = params :: body ∧ params.isVector = true) ∨
    ∃ name params body, args = name :: params :: body ∧ params.isVector = true
  | .namedFunction => ∃ name params body, args = name :: params :: body ∧ params.isVector = true
  | .definition => args.length = 2 ∧ top = true
  | .subscript | .moduleBlock | .importing | .using | .exporting | .ascription | .curly => 0 < args.length
  | .range => 0 < args.length ∧ args.length ≤ 3
  | .access => args.length = 2 ∧ ∃ name span, args[1]? = some (.atom (.symbol name) span) ∧ [] ∉ splitPath name

/-- The arguments of a special form with the places where they are converted. -/
def SpecialForm.argumentPlaces (special : SpecialForm) (args : List Form) : List (Place × Form) :=
  if special = .moduleBlock then
    (args.take 1).map (Prod.mk (.plain false)) ++ (args.drop 1).map (Prod.mk (.plain true))
  else args.map (Prod.mk (.plain false))

/-- Whether the rule of a special form gives a node exactly if the special form accepts its arguments and they have
nodes. -/
def SpecialForm.IsExact (special : SpecialForm) : Prop :=
  ∀ (top : Bool) (whole head : Form) (args : List Form), Form.SoundSymbols args →
    ((∃ n, Form.toSpecialNode top whole special (head :: args) = .ok n) ↔
      special.Accepts top args ∧ ∀ v ∈ special.argumentPlaces args, v.2.Convertible v.1)

lemma isExact_listing (kind : Listing) : kind.special.IsExact := by
  intro top whole head args _
  cases args with
  | nil =>
    cases kind <;>
      simp [Listing.special, Form.toSpecialNode, SpecialForm.Accepts, SpecialForm.argumentPlaces]
  | cons f rest =>
    rw [kind.toSpecialNode_eq (.inl (List.cons_ne_nil f rest)), exists_map_eq_ok, exists_toNodes_iff]
    cases kind <;> simp [Listing.special, SpecialForm.Accepts, SpecialForm.argumentPlaces]

lemma isExact_sequence : SpecialForm.sequence.IsExact := by
  intro top whole head args _
  simp [Form.toSpecialNode, SpecialForm.Accepts, SpecialForm.argumentPlaces]

lemma isExact_ascription : SpecialForm.ascription.IsExact := by
  intro top whole head args _
  cases args with
  | nil => simp [Form.toSpecialNode, SpecialForm.Accepts]
  | cons f rest => simp [Form.toSpecialNode, SpecialForm.Accepts, SpecialForm.argumentPlaces]

lemma isExact_range : SpecialForm.range.IsExact := by
  intro top whole head args _
  rw [Form.toSpecialNode]
  split
  next hcount =>
    simp only [Bool.or_eq_true, List.isEmpty_iff, decide_eq_true_eq] at hcount
    refine iff_of_false (by simp) fun h => ?_
    obtain ⟨hpositive, hlength⟩ := h.1
    rcases hcount with rfl | hcount
    · cases hpositive
    · omega
  next hcount =>
    simp only [Bool.or_eq_true, List.isEmpty_iff, decide_eq_true_eq, not_or, ← ne_eq, ← List.length_pos_iff,
      not_lt] at hcount
    simp [SpecialForm.Accepts, SpecialForm.argumentPlaces, hcount]

lemma isExact_conditional : SpecialForm.conditional.IsExact := by
  intro top whole head args _
  match args with
  | [] | [_] | _ :: _ :: _ :: _ :: _ => simp [Form.toSpecialNode, SpecialForm.Accepts]
  | [_, _] | [_, _, _] =>
    simp [Form.toSpecialNode, SpecialForm.Accepts, SpecialForm.argumentPlaces, exists_toNode_iff]

/-- The special forms of exactly one part. -/
lemma isExact_single {special : SpecialForm} (hspecial : special = .unquoting ∨ ∃ kind, special = .quoting kind) :
    special.IsExact := by
  intro top whole head args _
  rcases hspecial with rfl | ⟨kind, rfl⟩
  all_goals
    match args with
    | [] | _ :: _ :: _ => simp [Form.toSpecialNode, SpecialForm.Accepts]
    | [_] => simp [Form.toSpecialNode, SpecialForm.Accepts, SpecialForm.argumentPlaces, exists_toNode_iff]

lemma isExact_splicing : SpecialForm.splicing.IsExact := by
  intro top whole head args _
  simp [Form.toSpecialNode, SpecialForm.Accepts]

lemma isExact_definition : SpecialForm.definition.IsExact := by
  intro top whole head args _
  match args with
  | [] | [_] | _ :: _ :: _ :: _ => simp [Form.toSpecialNode, SpecialForm.Accepts]
  | [_, _] =>
    cases top with
    | true => simp [Form.toSpecialNode, SpecialForm.Accepts, SpecialForm.argumentPlaces, exists_toNode_iff]
    | false => simp [Form.toSpecialNode, SpecialForm.Accepts]

lemma isExact_subscript : SpecialForm.subscript.IsExact := by
  intro top whole head args _
  cases args with
  | nil => simp [Form.toSpecialNode, SpecialForm.Accepts]
  | cons f rest =>
    simp [Form.toSpecialNode, SpecialForm.Accepts, SpecialForm.argumentPlaces, exists_toNode_iff]

lemma isExact_moduleBlock : SpecialForm.moduleBlock.IsExact := by
  intro top whole head args _
  cases args with
  | nil => simp [Form.toSpecialNode, SpecialForm.Accepts]
  | cons f rest =>
    simp [Form.toSpecialNode, SpecialForm.Accepts, SpecialForm.argumentPlaces,
      exists_toNode_iff, and_comm]

/-! Three special forms want vectors. -/

lemma isVector_cases (f : Form) : f.isVector = false ∨ ∃ elements span, f = .compound .vector elements span := by
  cases f with
  | atom value span => exact .inl rfl
  | compound shape elements span =>
    cases shape with
    | vector => exact .inr ⟨elements, span, rfl⟩
    | _ => exact .inl rfl

lemma ne_vector {f : Form} (h : f.isVector = false) (elements : List Form) (span : Option Span) :
    f ≠ .compound .vector elements span := by
  rintro rfl
  cases h

lemma convertible_vector {elements : List Form} {span : Option Span} :
    (Form.compound .vector elements span).Convertible (.plain false) ↔
      ∀ f ∈ elements, f.Convertible (.plain false) := by
  rw [← exists_toNodes_iff]
  simp [Form.Convertible, Form.nodeAt, Form.toNode]

lemma isExact_letBlock : SpecialForm.letBlock.IsExact := by
  intro top whole head args _
  match args with
  | [] => simp [Form.toSpecialNode, SpecialForm.Accepts]
  | other :: body =>
    rcases isVector_cases other with hother | ⟨bindings, span, rfl⟩
    · rw [Form.toSpecialNode]
      · simp [SpecialForm.Accepts, hother]
      · exact fun elements span => ne_vector hother elements span
    · rw [Form.toSpecialNode]
      by_cases hodd : bindings.length % 2 = 1
      · rw [if_pos hodd]
        refine iff_of_false nofun fun h => ?_
        obtain ⟨_, _, heq, -, heven⟩ := h.1
        obtain ⟨rfl, -⟩ := List.cons.inj heq
        rw [Form.elements] at heven
        omega
      · have heven : bindings.length % 2 = 0 := by omega
        rw [if_neg hodd]
        simp [SpecialForm.Accepts, SpecialForm.argumentPlaces, Form.isVector,
          convertible_vector, heven]

lemma isExact_function : SpecialForm.function.IsExact := by
  intro top whole head args _
  match args with
  | [] => simp [Form.toSpecialNode, SpecialForm.Accepts]
  | first :: rest =>
    rcases isVector_cases first with hfirst | ⟨params, span, rfl⟩
    · match rest with
      | [] =>
        rw [Form.toSpecialNode]
        · simp [SpecialForm.Accepts, hfirst]
        · exact fun elements span => ne_vector hfirst elements span
      | other :: body =>
        rcases isVector_cases other with hother | ⟨params, span, rfl⟩
        · rw [Form.toSpecialNode]
          · simp [SpecialForm.Accepts, hfirst, hother]
          · exact fun elements span => ne_vector hfirst elements span
          · exact fun elements span => ne_vector hother elements span
        · rw [Form.toSpecialNode]
          · simp [SpecialForm.Accepts, SpecialForm.argumentPlaces, exists_toNode_iff,
              Form.isVector, convertible_vector]
          · exact fun elements span => ne_vector hfirst elements span
    · rw [Form.toSpecialNode]
      simp [SpecialForm.Accepts, SpecialForm.argumentPlaces, Form.isVector, convertible_vector]

lemma isExact_namedFunction : SpecialForm.namedFunction.IsExact := by
  intro top whole head args _
  match args with
  | [] | [_] => simp [Form.toSpecialNode, SpecialForm.Accepts]
  | name :: other :: body =>
    rcases isVector_cases other with hother | ⟨params, span, rfl⟩
    · rw [Form.toSpecialNode]
      · simp [SpecialForm.Accepts, hother]
      · exact fun elements span => ne_vector hother elements span
    · rw [Form.toSpecialNode]
      simp [SpecialForm.Accepts, SpecialForm.argumentPlaces, exists_toNode_iff,
        Form.isVector, convertible_vector]

/-- An atom that has a node has one in every place. -/
lemma convertible_atom {value : Atom} (h : ∀ span, ∃ n, atomNode value span = .ok n) (p : Place)
    (span : Option Span) : (Form.atom value span).Convertible p := by
  cases p with
  | plain top => exact h span
  | quoted =>
    cases value with
    | keyword name => exact ⟨.identifier (escapeSymbol name), rfl⟩
    | _ => exact h span

lemma isExact_access : SpecialForm.access.IsExact := by
  intro top whole head args hargs
  match args with
  | [] | [_] => exact iff_of_false nofun (by simp [SpecialForm.Accepts])
  | _ :: field :: _ :: _ =>
    refine iff_of_false ?_ (by simp [SpecialForm.Accepts])
    cases field with
    | atom value span => cases value <;> nofun
    | compound shape elements span => nofun
  | [base, .compound shape elements span] => exact iff_of_false nofun (by simp [SpecialForm.Accepts])
  | [base, .atom value span] =>
    cases value with
    | symbol name =>
      have hfield := convertible_atom (exists_symbolAtomNode (hargs name span (by simp))) (.plain false) span
      rw [Form.toSpecialNode]
      by_cases hempty : [] ∈ splitPath name
      · simp [SpecialForm.Accepts, hempty]
      · simp [SpecialForm.Accepts, SpecialForm.argumentPlaces, exists_toNode_iff, hempty, hfield]
    | _ => exact iff_of_false nofun (by simp [SpecialForm.Accepts])

lemma isExact (special : SpecialForm) : special.IsExact := by
  cases special with
  | sequence => exact isExact_sequence
  | conditional => exact isExact_conditional
  | quoting kind => exact isExact_single (.inr ⟨kind, rfl⟩)
  | unquoting => exact isExact_single (.inl rfl)
  | splicing => exact isExact_splicing
  | tuple => exact isExact_listing .tuple
  | letBlock => exact isExact_letBlock
  | function => exact isExact_function
  | namedFunction => exact isExact_namedFunction
  | definition => exact isExact_definition
  | subscript => exact isExact_subscript
  | range => exact isExact_range
  | moduleBlock => exact isExact_moduleBlock
  | importing => exact isExact_listing .imports
  | «using» => exact isExact_listing .uses
  | exporting => exact isExact_listing .exports
  | access => exact isExact_access
  | ascription => exact isExact_ascription
  | curly => exact isExact_listing .curly
  | conjunction => exact isExact_listing .conjunction
  | disjunction => exact isExact_listing .disjunction

/-! ## Names of special forms -/

lemma mem_specialForms {name : Text} {special : SpecialForm} (h : SpecialForm.ofName? name = some special) :
    (name, special) ∈ specialForms := by
  rw [SpecialForm.ofName?, Text.assoc?, Option.map_eq_some_iff] at h
  obtain ⟨entry, hfind, rfl⟩ := h
  have hname := List.find?_some hfind
  rw [beq_iff_eq] at hname
  exact hname ▸ List.mem_of_find?_eq_some hfind

section

variable {top : Bool} {name : Text} {args : List Form} {place span : Option Span}

/-- What makes a list malformed that a symbol leads. -/
lemma malformed_headed_iff : (Form.compound .list (.atom (.symbol name) place :: args) span).Malformed (.plain top) ↔
    (∃ least greatest, (name, least, greatest) ∈ elementCounts ∧
      (args.length + 1 < least ∨ ∃ most ∈ greatest, most < args.length + 1)) ∨
    name = "unquote-splicing".toList ∨
    (name = "let".toList ∧
      ∃ bindings ∈ args[0]?, bindings.isVector = false ∨ bindings.elements.length % 2 = 1) ∨
    (name = "fn".toList ∧ ∃ params ∈ args[0]?, params.isVector = false ∧
      ∀ others ∈ args[1]?, others.isVector = false) ∨
    (name = "defn".toList ∧ ∃ params ∈ args[1]?, params.isVector = false) ∨
    (name = "def".toList ∧ top = false) ∨
    (name = ".".toList ∧
      ∃ field ∈ args[1]?, ∀ name span, field = .atom (.symbol name) span → [] ∈ splitPath name) := by
  simp [Form.malformed_iff, Form.head?, -Bool.exists_bool]

/-- A list that a special form leads is malformed exactly if the special form does not accept the arguments. -/
lemma malformed_special_iff {special : SpecialForm} (hspecial : SpecialForm.ofName? name = some special) :
    (Form.compound .list (.atom (.symbol name) place :: args) span).Malformed (.plain top) ↔
      ¬special.Accepts top args := by
  have hentry := mem_specialForms hspecial
  simp only [specialForms, List.mem_cons, List.not_mem_nil, or_false, Prod.mk.injEq] at hentry
  rcases hentry with h | h | h | h | h | h | h | h | h | h | h | h | h | h | h | h | h | h | h | h | h | h
  all_goals
    obtain ⟨rfl, rfl⟩ := h
    simp [malformed_headed_iff, elementCounts, SpecialForm.Accepts, -List.length_eq_zero_iff]
  -- the lists of which the elements are only counted
  all_goals try omega
  -- what remains are bindings, the two kinds of functions, definitions and fields
  · match args with
    | [] => simp
    | bindings :: _ => cases hvector : bindings.isVector <;> simp [hvector]
  · match args with
    | [] | [_] | _ :: _ :: _ => simp
  · match args with
    | [] | [_] | _ :: _ :: _ => simp
  · cases top
    · simp
    · simp
      omega
  · match args with
    | [] | [_] | [_, _] | _ :: _ :: _ :: _ => simp

/-- A list that no special form leads is not malformed. -/
lemma not_malformed_call (hname : SpecialForm.ofName? name = none) :
    ¬(Form.compound .list (.atom (.symbol name) place :: args) span).Malformed (.plain top) := by
  have hcounts : ∀ entry ∈ elementCounts, SpecialForm.ofName? entry.1 ≠ none := by decide
  intro h
  cases h with
  | callee h => exact h name rfl
  | count hhead hcount h =>
    cases hhead
    exact hcounts _ hcount hname
  | splicing hhead | bindings hhead | params hhead | namedParams hhead | definition hhead | field hhead =>
    cases hhead
    exact absurd hname (by decide)

lemma argumentPlaces_special {special : SpecialForm} (hspecial : SpecialForm.ofName? name = some special) :
    Form.argumentPlaces name args (.plain top) = special.argumentPlaces args := by
  have hmodule : ∀ entry ∈ specialForms, entry.1 = "module".toList ↔ entry.2 = .moduleBlock := by decide
  have hmacro : ¬(name.head? = some '@' ∧ 1 < name.length) := fun h =>
    Option.some_ne_none special (hspecial.symm.trans (ofName?_of_head h.1))
  have hname : name = "module".toList ↔ special = .moduleBlock := hmodule _ (mem_specialForms hspecial)
  simp only [Form.argumentPlaces, SpecialForm.argumentPlaces, hname, if_neg hmacro]

end

/-! ## Lists -/

section

variable {top : Bool} {name : Text} {args : List Form} {place span : Option Span}

/-- A list that a symbol leads has a node exactly if it is not malformed and its arguments have nodes. -/
lemma convertible_headed_iff (hname : symbolNode? name ≠ none) (hargs : Form.SoundSymbols args) :
    (Form.compound .list (.atom (.symbol name) place :: args) span).Convertible (.plain top) ↔
      ¬(Form.compound .list (.atom (.symbol name) place :: args) span).Malformed (.plain top) ∧
        ∀ v ∈ Form.argumentPlaces name args (.plain top), v.2.Convertible v.1 := by
  rw [← exists_toNode_iff, Form.toNode, Form.head?]
  dsimp only
  cases hspecial : SpecialForm.ofName? name with
  | some special =>
    rw [malformed_special_iff hspecial, not_not, argumentPlaces_special hspecial]
    exact isExact special top _ _ args hargs
  | none =>
    have hmodule : name ≠ "module".toList := by
      rintro rfl
      exact absurd hspecial (by decide)
    rw [and_iff_right (not_malformed_call hspecial), Form.argumentPlaces, if_neg hmodule]
    dsimp only
    by_cases hmacro : name.head? = some '@' ∧ 1 < name.length
    · rw [if_pos hmacro, if_pos hmacro]
      simp
    · have hcallee := convertible_atom (exists_symbolAtomNode hname) (.plain false) place
      rw [if_neg hmacro, if_neg hmacro]
      simp [exists_toNode_iff, hcallee]

lemma malformed_quoted_iff : (Form.compound .list (.atom (.symbol name) place :: args) span).Malformed .quoted ↔
    name = "quote".toList ∧ args.length ≠ 1 := by
  simp [Form.malformed_iff, Form.head?]

/-- In quoted mode only the quotation counts its arguments. -/
lemma convertible_quoted_headed_iff :
    (Form.compound .list (.atom (.symbol name) place :: args) span).Convertible .quoted ↔
      ¬(Form.compound .list (.atom (.symbol name) place :: args) span).Malformed .quoted ∧
        ∀ v ∈ Form.argumentPlaces name args .quoted, v.2.Convertible v.1 := by
  rw [Form.Convertible, Form.nodeAt, malformed_quoted_iff, Form.argumentPlaces]
  by_cases hquote : name = "quote".toList
  · subst hquote
    by_cases hlength : args.length = 1
    · obtain ⟨inner, rfl⟩ := List.length_eq_one_iff.1 hlength
      rw [toQuotedNode_quote]
      simp [exists_toNode_iff]
    · rw [toQuotedNode_quote_ne _ _ _ hlength]
      simp [hlength]
  · by_cases htuple : name = "tuple".toList
    · subst htuple
      rw [toQuotedNode_tuple]
      simp
    · rw [toQuotedNode_raw _ _ _ hquote htuple, if_neg hquote, and_iff_right fun h => hquote h.1]
      simp

end

/-! ## One step -/

section

variable {p : Place} {f : Form}

lemma mem_of_mem_argumentPlaces {name : Text} {args : List Form} {v : Place × Form}
    (hv : v ∈ Form.argumentPlaces name args p) : v.2 ∈ args := by
  unfold Form.argumentPlaces at hv
  split at hv
  · split at hv
    · rcases List.mem_append.1 hv with hv | hv
      · exact List.mem_of_mem_take (mem_of_mem_map_mk hv)
      · exact List.mem_of_mem_drop (mem_of_mem_map_mk hv)
    · split at hv <;> exact mem_of_mem_map_mk hv
  · split at hv <;> exact mem_of_mem_map_mk hv

lemma mem_elements_of_mem_members {v : Place × Form} (hv : v ∈ Form.members (p, f)) : v.2 ∈ f.elements := by
  cases hhead : f.head? with
  | some name =>
    rw [Form.members, hhead] at hv
    exact List.mem_of_mem_tail (mem_of_mem_argumentPlaces hv)
  | none =>
    rw [Form.members, hhead] at hv
    exact mem_of_mem_map_mk hv

/-- Only lists that atoms lead are malformed, in quoted mode only those that symbols lead. -/
lemma not_malformed (hhead : f.head? = none)
    (hlead : ∀ top value place args span, p = .plain top → f ≠ .compound .list (.atom value place :: args) span) :
    ¬f.Malformed p := by
  intro h
  cases h with
  | callee => exact hlead _ _ _ _ _ rfl rfl
  | count h | splicing h | bindings h | params h | namedParams h | definition h | field h | quotation h =>
    rw [hhead] at h
    cases h

/-- Where the first element has no meaning for a form, the form has a node exactly if its elements have. -/
lemma convertible_iff_of_elements (hhead : f.head? = none)
    (hlead : ∀ top value place args span, p = .plain top → f ≠ .compound .list (.atom value place :: args) span)
    (h : f.Convertible p ↔ ∃ nodes, Form.nodesAt p.inner f.elements = .ok nodes) :
    f.Convertible p ↔ ¬f.Malformed p ∧ ∀ v ∈ Form.members (p, f), v.2.Convertible v.1 := by
  rw [h, exists_nodesAt_iff, and_iff_right (not_malformed hhead hlead), Form.members, hhead]
  dsimp only
  rw [List.forall_mem_map]

/-- A list that an atom other than a symbol leads is malformed, but not in quoted mode. -/
lemma convertible_uncallable_iff {value : Atom} {place span : Option Span} {args : List Form}
    (hsymbol : ∀ name, value ≠ .symbol name) :
    (Form.compound .list (.atom value place :: args) span).Convertible p ↔
      ¬(Form.compound .list (.atom value place :: args) span).Malformed p ∧
        ∀ v ∈ Form.members (p, .compound .list (.atom value place :: args) span), v.2.Convertible v.1 := by
  cases p with
  | plain top =>
    refine iff_of_false ?_ fun h => h.1 (.callee hsymbol)
    cases value with
    | symbol name => exact absurd rfl (hsymbol name)
    | _ => rintro ⟨node, ⟨⟩⟩
  | quoted =>
    have hhead : (Form.compound .list (.atom value place :: args) span).head? = none := by
      cases value with
      | symbol name => exact absurd rfl (hsymbol name)
      | _ => rfl
    refine convertible_iff_of_elements hhead (by simp) ?_
    rw [Form.Convertible, Form.nodeAt, Form.toQuotedNode]
    · simp [Form.nodesAt, Place.inner]
    · rintro ⟨⟩
    · exact fun name _ _ heq => hsymbol name (Form.atom.inj (List.cons.inj heq).1).1

/-- A sound form has a node exactly if it is not malformed and the forms inside it have nodes. -/
lemma convertible_iff_of_sound (hf : f.Sound) :
    f.Convertible p ↔ ¬f.Malformed p ∧ ∀ v ∈ Form.members (p, f), v.2.Convertible v.1 := by
  match f with
  | .atom value span =>
    refine convertible_iff_of_elements rfl (by simp) ?_
    exact iff_of_true (convertible_atom hf p span) (exists_nodesAt_iff.2 (List.forall_mem_nil _))
  | .compound .vector elements span | .compound .set elements span =>
    refine convertible_iff_of_elements rfl (by simp) ?_
    rw [Form.Convertible]
    cases p <;> simp [Form.nodeAt, Form.toNode, Form.toQuotedNode, Form.nodesAt, Place.inner]
  | .compound .map elements span =>
    have heven : elements.length % 2 = 0 := hf.1 rfl
    refine convertible_iff_of_elements rfl (by simp) ?_
    rw [Form.Convertible]
    cases p <;> simp [Form.nodeAt, Form.toNode, Form.toQuotedNode, Form.nodesAt, Place.inner, heven]
  | .compound .list [] span =>
    refine convertible_iff_of_elements rfl (by simp) (iff_of_true ?_ ?_)
    · cases p <;> exact ⟨_, rfl⟩
    · exact exists_nodesAt_iff.2 (List.forall_mem_nil _)
  | .compound .list (.compound shape parts place :: args) span =>
    refine convertible_iff_of_elements rfl (by simp) ?_
    rw [Form.Convertible]
    cases p with
    | plain top =>
      simp [Form.nodeAt, Form.toNode, Form.head?, Form.isCallable, Form.nodesAt, Place.inner, Form.toNodes]
    | quoted => simp [Form.nodeAt, Form.toQuotedNode, Form.nodesAt, Place.inner]
  | .compound .list (.atom value place :: args) span =>
    by_cases hsymbol : ∃ name, value = .symbol name
    · obtain ⟨name, rfl⟩ := hsymbol
      have hname := hf.2 name place List.mem_cons_self
      have hargs : Form.SoundSymbols args := fun other span hmem => hf.2 other span (List.mem_cons_of_mem _ hmem)
      cases p with
      | plain top => exact convertible_headed_iff hname hargs
      | quoted => exact convertible_quoted_headed_iff
    · exact convertible_uncallable_iff (not_exists.1 hsymbol)

/-- A form that a source can write has a node exactly if it is not malformed and the forms inside it have nodes. -/
lemma convertible_iff (hf : f.Readable) :
    f.Convertible p ↔ ¬f.Malformed p ∧ ∀ v ∈ Form.members (p, f), v.2.Convertible v.1 :=
  convertible_iff_of_sound hf.sound

/-! ## All forms -/

lemma readable_elements (hf : f.Readable) : ∀ g ∈ f.elements, g.Readable := by
  cases f with
  | atom value span => nofun
  | compound shape elements span => exact Form.allReadable_iff.1 hf.2

lemma sizeOf_elements {g : Form} (hg : g ∈ f.elements) : sizeOf g < sizeOf f := by
  cases f with
  | atom value span => cases hg
  | compound shape elements span =>
    have hlist : sizeOf g < sizeOf elements := List.sizeOf_lt_of_mem hg
    rw [Form.compound.sizeOf_spec]
    omega

lemma readable_of_reaches {v w : Place × Form} (h : Reaches Form.members v w) (hv : v.2.Readable) :
    w.2.Readable := by
  induction h with
  | refl => exact hv
  | tail _ hmem ih => exact readable_elements ih _ (mem_elements_of_mem_members hmem)

/-- A form that was read from a source, or stands inside one, has no node exactly if somewhere in it a malformed form
is converted. -/
theorem toNode_fails_iff {source : Text} {whole f : Form} (hwhole : whole ∈ (forms source).items)
    (hf : whole.Contains f) (top : Bool) :
    (∃ fault, f.toNode top = .error fault) ↔
      ∃ p g, Reaches Form.members (.plain top, f) (p, g) ∧ g.Malformed p := by
  have hreadable : f.Readable := hf.readable (readable_of_mem_forms hwhole)
  have hconvertible : ¬f.Convertible (.plain top) ↔
      ∃ v, Reaches Form.members (.plain top, f) v ∧ v.2.Malformed v.1 :=
    not_iff_exists_reaches (a := (Place.plain top, f)) (Q := fun v => v.2.Convertible v.1) (fun v => sizeOf v.2)
      (fun hv => sizeOf_elements (mem_elements_of_mem_members hv))
      fun v hv => convertible_iff (readable_of_reaches hv hreadable)
  rw [exists_error_iff, exists_toNode_iff, hconvertible, Prod.exists]

/-- What is read from a vector behind the marker of splicing. -/
lemma forms_splicedVector : forms "~@[]" = .next (Marker.unquoteSplicing.wrap ⟨⟨1, 1, 0⟩, ⟨1, 3, 2⟩⟩
    (.compound .vector [] (some ⟨⟨1, 3, 2⟩, ⟨1, 5, 4⟩⟩))) (.done ()) := by
  have htokens : tokens "~@[]" = .next ⟨.marker .unquoteSplicing, ['~', '@'], ⟨⟨1, 1, 0⟩, ⟨1, 3, 2⟩⟩⟩
      (.next ⟨.opening .square, ['['], ⟨⟨1, 3, 2⟩, ⟨1, 4, 3⟩⟩⟩
        (.next ⟨.closing .square, [']'], ⟨⟨1, 4, 3⟩, ⟨1, 5, 4⟩⟩⟩ (.done ⟨1, 5, 4⟩))) := by cbv
  rw [forms, htokens, readForms_eq_run]
  rfl

/-- The vector behind the marker is malformed with it. -/
theorem toNode_fails_iff_splicing : ∃ f, (forms "~@[]").items = [f] ∧ ∃ fault, f.toNode true = .error fault := by
  have hitems := congrArg Feed.items forms_splicedVector
  have hmem := List.mem_of_mem_head? (Option.mem_def.2 (congrArg List.head? hitems))
  exact ⟨_, hitems, (toNode_fails_iff hmem (.self _) true).2 ⟨_, _, reaches_self _ _, .splicing rfl⟩⟩

end

end Bilisp
