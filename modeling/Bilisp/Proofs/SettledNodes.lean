import Bilisp.Proofs.PrintedNodes
import Bilisp.Proofs.Writable

/-!
# Nodes whose text settles

The canonical text of a program is not always its own canonical text: a call of a keyword is written as a list
that is no call, and the arguments of a macro are not read in the way in which other forms are written. What can
go wrong at one node is excluded by `Node.Settles`, and `Node.Settled` excludes it at all nodes that are
written.
-/

namespace Bilisp

/-! ## Rereading -/

/-- The atom that the text of an atom is read as: a symbol named like a literal is read as the literal. -/
def Atom.reread : Atom → Atom
  | .symbol name => .ofName name
  | value => value

mutual

/-- The form that the text of a form is read as. -/
def Form.reread : Form → Form
  | .atom value span => .atom value.reread span
  | .compound shape elements span => .compound shape (Form.rereadAll elements) span

/-- The forms that the texts of forms are read as. -/
def Form.rereadAll : List Form → List Form
  | [] => []
  | f :: rest => Form.reread f :: Form.rereadAll rest

end

lemma ofName_of_not_mem {name : Text} (h : name ∉ literalNames) : Atom.ofName name = .symbol name := by
  simp only [literalNames, List.mem_cons, List.not_mem_nil, or_false, not_or] at h
  rw [Atom.ofName, if_neg h.1, if_neg h.2.1, if_neg h.2.2]

lemma exists_literal_of_mem {name : Text} (h : name ∈ literalNames) :
    ∃ value : Literal, value.form.Readable ∧ (∀ number, value ≠ .number number) ∧
      (Form.symbol name).reread = value.form := by
  simp only [literalNames, List.mem_cons, List.not_mem_nil, or_false] at h
  rcases h with rfl | rfl | rfl
  · exact ⟨.nothing, trivial, by simp, rfl⟩
  · exact ⟨.boolean true, trivial, by simp, rfl⟩
  · exact ⟨.boolean false, trivial, by simp, rfl⟩

lemma text_rereadAtom (value : Atom) : value.reread.text = value.text := by
  cases value with
  | symbol name =>
    rw [Atom.reread]
    by_cases h : name ∈ literalNames
    · simp only [literalNames, List.mem_cons, List.not_mem_nil, or_false] at h
      rcases h with rfl | rfl | rfl <;> rfl
    · rw [ofName_of_not_mem h]
  | _ => rfl

mutual

/-- Rereading a form keeps its text. -/
lemma text_reread (f : Form) : f.reread.text = f.text := by
  cases f with
  | atom value span => exact text_rereadAtom value
  | compound shape elements span => rw [Form.reread, Form.text, Form.text, texts_rereadAll]

lemma texts_rereadAll (forms : List Form) : Form.texts (Form.rereadAll forms) = Form.texts forms := by
  cases forms with
  | nil => rfl
  | cons f rest => rw [Form.rereadAll, Form.texts, Form.texts, text_reread f, texts_rereadAll rest]

end

lemma rereadAll_eq_map (forms : List Form) : Form.rereadAll forms = forms.map Form.reread := by
  induction forms with
  | nil => rfl
  | cons f rest ih => rw [Form.rereadAll, ih, List.map_cons]

lemma reread_symbol {name : Text} (h : name ∉ literalNames) : (Form.symbol name).reread = .symbol name := by
  rw [Form.symbol, Form.reread, Atom.reread, ofName_of_not_mem h]

lemma reread_headed {head : Text} (h : head ∉ literalNames) (forms : List Form) :
    (Form.headed head forms).reread = .headed head (forms.map Form.reread) := by
  rw [Form.headed, Form.list, Form.reread, Form.rereadAll, reread_symbol h, rereadAll_eq_map]
  rfl

lemma reread_list (forms : List Form) : (Form.list forms).reread = .list (forms.map Form.reread) := by
  rw [Form.list, Form.reread, rereadAll_eq_map]
  rfl

lemma reread_vector (forms : List Form) : (Form.vector forms).reread = .vector (forms.map Form.reread) := by
  rw [Form.vector, Form.reread, rereadAll_eq_map]
  rfl

lemma reread_literal (value : Literal) : value.form.reread = value.form := by cases value <;> rfl

/-! ## Names -/

/-- Whether a name is written as a symbol that a source can write and that stands for the name. -/
def HasSymbol (name : Text) : Prop :=
  isSymbolToken (unescapeSymbol name) = true ∧ escapeSymbol (unescapeSymbol name) = name

/-- Whether the symbol of a name is a segment or an operator, so that it is read as the name alone. -/
def IsSingleName (name : Text) : Prop :=
  HasSymbol name ∧ (isSegment (unescapeSymbol name) = true ∨ isOperator name = true)

/-- Whether a name leads an unevaluated list. Names of literals do not, and quotations have a rule of their
own. -/
def IsHeadName (name : Text) : Prop :=
  HasSymbol name ∧ unescapeSymbol name ∉ literalNames ∧ name ≠ Node.nothingName ∧ name ≠ "quote".toList

/-! ## What settles at one node -/

/-- Whether a form of a quoted node is read in a macro call as something that is written as the form. No
quotation and no keyword are in it, and a symbol that joins several names only leads a list. -/
inductive Form.Quotable : Form → Prop
  | literal {value : Literal} (h : value.form.Readable) : Quotable value.form
  | name {name : Text} (hname : IsSingleName name) (hliteral : unescapeSymbol name ∉ literalNames) :
    Quotable (nameForm name)
  | vector {forms : List Form} (h : ∀ f ∈ forms, Quotable f) : Quotable (.vector forms)
  | map {forms : List Form} (h : ∀ f ∈ forms, Quotable f) (heven : forms.length % 2 = 0) :
    Quotable (.compound .map forms none)
  | set {forms : List Form} (h : ∀ f ∈ forms, Quotable f) : Quotable (.compound .set forms none)
  | list {head : Text} {forms : List Form} (hhead : IsHeadName head) (h : ∀ f ∈ forms, Quotable f) :
    Quotable (.list (nameForm head :: forms))

namespace Node

/-- Whether a field can be written behind a base: the two give no operator, and the field is a symbol where it
stands alone. -/
structure FieldSettles (base : Node) (field : Text) : Prop where
  pair : NamePair field (unescapeSymbol field)
  segment : ∀ name, base = .identifier name → isSegment (unescapeSymbol name) = true
  operator : ∀ name, base = .identifier name → ¬(isOperator name = true ∧ isOperator field = true)
  alone : ∀ f, base.toForm false = .ok f →
    fieldForm f (unescapeSymbol field) = .headed "." [f, .symbol (unescapeSymbol field)] →
    isSymbolToken (unescapeSymbol field) = true ∧ unescapeSymbol field ∉ literalNames

/-- Whether names that are joined to one symbol are read as these names. -/
structure AscriptionSettles (operands : List Node) : Prop where
  segments : ∀ names : List Text, operands = names.map .identifier →
    ∀ name ∈ names, isSegment (unescapeSymbol name) = true
  operators : ∀ names : List Text, operands = names.map .identifier → ∃ name ∈ names, isOperator name = false
  typed : ∀ base type, operands = [base, .identifier type] → base.isPath = true →
    isSegment (unescapeSymbol type) = true

/-- Whether what a node outside macro calls adds to its parts is read as something that is written in the same
way. -/
def SettlesPlain (top : Bool) : Node → Prop
  | .identifier name => IsSingleName name
  | .quote (.identifier name) =>
    isKeywordToken (unescapeSymbol name) = true ∧ escapeSymbol (unescapeSymbol name) = name
  | .call callee _ => ∀ f, callee.toForm false = .ok f → f.reread.LeadsCall
  | .function name _ _ => top = true ∨ ∀ items, name ≠ .vector items
  | .dotAccess base field => FieldSettles base field
  | .ascription operands => AscriptionSettles operands
  | .macroCall name _ => HasSymbol name
  | _ => True

/-- Whether what a node in a macro call adds to its parts is read as something that is written in the same
way. -/
def SettlesQuoted : Node → Prop
  | .identifier name => IsSingleName name
  | .quote value => ∀ f, value.toForm false = .ok f → f.reread.Quotable
  | .dotAccess _ field => IsSingleName field
  | .macroCall name _ => IsSingleName name
  | .raw head _ => IsHeadName head
  | _ => True

/-- Whether what a node adds to its parts settles at a place. -/
def Settles : Place → Node → Prop
  | .plain top, n => n.SettlesPlain top
  | .quoted, n => n.SettlesQuoted

/-- Whether all nodes that are written when a node is written at a place settle. -/
inductive Settled : Place → Node → Prop
  | mk {p : Place} {n : Node} (hsettles : n.Settles p) (hvisits : ∀ v ∈ n.visits p, Settled v.1 v.2) :
    Settled p n

lemma Settled.settles {p : Place} {n : Node} (h : n.Settled p) : n.Settles p := by
  cases h with
  | mk hsettles hvisits => exact hsettles

end Node

end Bilisp
