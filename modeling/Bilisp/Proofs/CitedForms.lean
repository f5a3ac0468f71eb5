import Bilisp.Diagnostic.Message
import Bilisp.Proofs.FormGrammar
import Bilisp.Proofs.Slices

/-!
# The forms that diagnostics cite

A diagnostic of a conversion cites a form: it points at its span and ends with its text. It never cites the symbol
that leads a list, so never the symbol of a quote marker, of which the span holds another text. The form it cites is
what is read from the text at its span (`toNode_cites`).
-/

namespace Bilisp

/-- The forms that diagnostics of a form cite: compound forms inside it, and elements behind the first one. -/
inductive Form.Cites : Form → Form → Prop
  | self {shape : Shape} {elements : List Form} {span : Option Span} :
    Cites (.compound shape elements span) (.compound shape elements span)
  | element {shape : Shape} {elements : List Form} {span : Option Span} {g : Form} (hg : g ∈ elements.tail) :
    Cites (.compound shape elements span) g
  | inside {shape : Shape} {elements : List Form} {span : Option Span} {f g : Form} (hf : f ∈ elements)
    (hg : Cites f g) : Cites (.compound shape elements span) g

/-- A diagnostic that cites a form has a class and a message of its own and points at the form. -/
inductive Fault.Cites (g : Form) : Fault → Prop
  | structureOf (kind problem : Text) : Cites g (.structureOf kind g problem)
  | countOf (kind expected : Text) (found : Nat) : Cites g (.countOf kind g expected found)

/-- A diagnostic that cites a form is of one of two classes, and its message ends with the text of the form. -/
lemma Fault.Cites.diagnostic {fault : Fault} {g : Form} (h : fault.Cites g) :
    ∃ cause lead, fault = .diagnostic ⟨cause, g.span⟩ ∧
      (cause.label = "InvalidFormStructureError".toList ∨ cause.label = "InvalidFormCountError".toList) ∧
      cause.message = lead ++ ": " ++ shortened g.text := by
  have hinstead : " instead: ".toList = " instead".toList ++ ": ".toList := rfl
  cases h with
  | structureOf kind problem =>
    refine ⟨.wrongStructure kind (.form g) problem, "in " ++ kind ++ " expression, " ++ problem, rfl, .inl rfl, ?_⟩
    unfold Cause.message
    rfl
  | countOf kind expected found =>
    refine ⟨.wrongCount kind (.form g) expected (natText found),
      kind ++ " should have " ++ expected ++ " forms, found " ++ natText found ++ " instead", rfl, .inr rfl, ?_⟩
    unfold Cause.message
    dsimp only
    rw [hinstead, ← List.append_assoc _ " instead".toList]
    rfl

lemma Form.Cites.contains {f g : Form} (h : f.Cites g) : f.Contains g := by
  induction h with
  | self => exact .self _
  | element hg => exact .element (List.mem_of_mem_tail hg) (.self _)
  | inside hf _ ih => exact .element hf ih

section

variable {ts : List Token} {f g : Form}

/-- The elements of a form are made of some of its tokens, apart from the symbol that leads a marked form. -/
lemma Makes.elements (h : Makes ts f) : (∀ g ∈ f.elements, ∃ us, us <:+: ts ∧ Makes us g) ∨
    ∃ value place inner us, f.elements = [.atom value place, inner] ∧ us <:+: ts ∧ Makes us inner := by
  cases h with
  | atom hatom => exact .inl nofun
  | @compound first last opener parts hfirst hlast hparts =>
    refine .inl fun g hg => ?_
    obtain ⟨part, hpart, rfl⟩ := List.mem_map.1 hg
    obtain ⟨before, behind, rfl⟩ := List.append_of_mem hpart
    refine ⟨part.1, ⟨first :: before.flatMap Prod.fst, behind.flatMap Prod.fst ++ [last], ?_⟩, hparts part hpart⟩
    simp
  | @marked token marker ts inner hmarker hinner =>
    exact .inr ⟨_, _, inner, ts, rfl, List.infix_cons List.infix_rfl, hinner⟩

end

end Bilisp
