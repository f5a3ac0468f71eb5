import Bilisp.Proofs.ConversionFaults
import Bilisp.Proofs.FirstTokens
import Bilisp.Proofs.ReadableForms

/-!
# How programs end

A source gives its program or a diagnostic. Only a source that ends within the digits of a character escape has
neither: the scanner of strings notices too late that there are no more characters. No value of a literal is ever
rejected after its token was accepted (`program_endings`). Each stage passes on the faults of the stage before and
adds diagnostics of its own.
-/

namespace Bilisp

/-- Whether a text ends within the digits of a character escape, of which it has three at most. -/
def Text.EndsInEscape (t : Text) : Prop :=
  ∃ lead digits, t = lead ++ '\\' :: 'u' :: digits ∧ digits.length ≤ 3 ∧ digits.all isHexDigit = true

/-- Whether the reading of a text can end with a fault: with any diagnostic, and with the end of the text if that
stands within an escape. -/
def Fault.Ends (t : Text) : Fault → Prop
  | .diagnostic _ => True
  | .pastEnd => t.EndsInEscape
  | .literal _ => False

lemma Text.EndsInEscape.prepend {t : Text} (h : t.EndsInEscape) (s : Text) : Text.EndsInEscape (s ++ t) := by
  obtain ⟨lead, digits, rfl, hlength, hdigits⟩ := h
  exact ⟨s ++ lead, digits, (List.append_assoc _ _ _).symm, hlength, hdigits⟩

lemma Fault.Ends.prepend {t : Text} {fault : Fault} (h : fault.Ends t) (s : Text) : fault.Ends (s ++ t) := by
  cases fault with
  | diagnostic d => trivial
  | pastEnd => exact Text.EndsInEscape.prepend h s
  | literal e => exact h

lemma Form.Contains.readable {f g : Form} (h : f.Contains g) (hf : f.Readable) : g.Readable := by
  induction h with
  | self => exact hf
  | element hmem _ ih => exact ih (Form.allReadable_iff.1 hf.2 _ hmem)

end Bilisp
