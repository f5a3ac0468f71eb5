import Bilisp.Token.Scan
import Mathlib.Tactic.Common

/-!
# Relations between classes of characters

The classes of characters are given by ranges of code points and by short lists. This file compares them:
digits go on with an atom, what may stand in a segment or an operator does too, and the characters that follow
a written form do not.
-/

namespace Bilisp

lemma exists_range_of_inRanges {n : Nat} {ranges : List (Nat × Nat)} (h : inRanges n ranges = true) :
    ∃ r ∈ ranges, r.1 ≤ n ∧ n ≤ r.2 := by
  induction ranges with
  | nil => simp [inRanges, rangeStart?] at h
  | cons r ranges ih =>
    simp only [inRanges, rangeStart?] at h ih
    split at h
    · simp at h
    · split at h
      · exact ⟨r, List.mem_cons_self, by omega, by omega⟩
      · obtain ⟨s, hs, hbounds⟩ := ih h
        exact ⟨s, List.mem_cons_of_mem _ hs, hbounds⟩

lemma not_inRanges_of_disjoint {n : Nat} {ranges others : List (Nat × Nat)}
    (hdisjoint : ∀ r ∈ ranges, ∀ s ∈ others, r.2 < s.1 ∨ s.2 < r.1) (h : inRanges n ranges = true) :
    inRanges n others = false := by
  by_contra hother
  obtain ⟨r, hr, hr1, hr2⟩ := exists_range_of_inRanges h
  obtain ⟨s, hs, hs1, hs2⟩ := exists_range_of_inRanges (by simpa using hother)
  rcases hdisjoint r hr s hs with hlt | hlt <;> omega

lemma isBlank_of_isDigit {c : Char} (h : isDigit c = true) : isBlank c = false := by
  simp only [isDigit, isDecimal, Bool.or_eq_true] at h
  rcases h with h | h
  · exact not_inRanges_of_disjoint (by decide) h
  · exact not_inRanges_of_disjoint (by decide) h

/-- A blank is no letter or digit. -/
lemma isAlphanumeric_of_isBlank {c : Char} (h : isBlank c = true) : isAlphanumeric c = false :=
  not_inRanges_of_disjoint (by decide +kernel) h

lemma isAtomChar_of_isDigit {c : Char} (h : isDigit c = true) : isAtomChar c = true := by
  have hends : atomEnds.all (fun d => !isDigit d) = true := by decide
  simp only [isAtomChar, isBlank_of_isDigit h, Bool.not_false, Bool.true_and, Bool.not_eq_true',
    List.contains_eq_mem, decide_eq_false_iff_not]
  intro hmem
  simpa [h] using List.all_eq_true.1 hends c hmem

lemma isDigit_of_isDecimal {c : Char} (h : isDecimal c = true) : isDigit c = true := by
  rw [isDigit, h, Bool.true_or]

lemma toNat_le_of_le {c d : Char} (h : c ≤ d) : c.toNat ≤ d.toNat := UInt32.le_iff_toNat_le.1 h

/-- A property of letters and digits of ASCII is checked on the characters below code 128. -/
lemma forall_ascii {p : Char → Prop} (h : ∀ n < 128, p (Char.ofNat n)) {c : Char} (hc : c ≤ 'z') : p c := by
  have hlt : c.toNat < 128 := Nat.lt_of_le_of_lt (toNat_le_of_le hc) (by decide)
  rw [← Char.ofNat_toNat c]
  exact h c.toNat hlt

lemma le_of_isAsciiAlphanumeric {c : Char} (h : isAsciiAlphanumeric c = true) : c ≤ 'z' := by
  simp only [isAsciiAlphanumeric, asciiDigitValue?, Bool.and_eq_true, decide_eq_true_eq] at h
  split_ifs at h with h1 h2 h3
  · exact Char.le_trans h1.2 (by decide)
  · exact h2.2
  · exact Char.le_trans h3.2 (by decide)
  · simp at h

lemma isAtomChar_of_isAsciiAlphanumeric {c : Char} (h : isAsciiAlphanumeric c = true) :
    isAtomChar c = true :=
  forall_ascii (p := fun c => isAsciiAlphanumeric c = true → isAtomChar c = true)
    (by decide) (le_of_isAsciiAlphanumeric h) h

lemma isAsciiAlphanumeric_of_isHexDigit {c : Char} (h : isHexDigit c = true) : isAsciiAlphanumeric c = true := by
  have hle : c ≤ 'z' := by
    simp only [isHexDigit, Bool.or_eq_true, Bool.and_eq_true, decide_eq_true_eq] at h
    rcases h with (h | h) | h
    · exact Char.le_trans h.2 (by decide)
    · exact Char.le_trans h.2 (by decide)
    · exact Char.le_trans h.2 (by decide)
  exact forall_ascii (p := fun c => isHexDigit c = true → isAsciiAlphanumeric c = true)
    (by decide) hle h

lemma isAtomChar_of_isSegmentChar {c : Char} (h : isSegmentChar c = true) : isAtomChar c = true := by
  have hsub : atomEnds ⊆ segmentEnds := by decide
  simp only [isSegmentChar, isAtomChar, Bool.and_eq_true, Bool.not_eq_true', List.contains_eq_mem,
    decide_eq_false_iff_not] at h ⊢
  exact ⟨h.1, fun hmem => h.2 (hsub hmem)⟩

/-- The characters with which something other than a symbol or a number begins. -/
def markChars : List Char :=
  ['(', ')', '[', ']', '\x7b', '\x7d', '\'', '\x60', '~', '#', '"', '\\', ':']

lemma not_separator_of_isAtomChar {c : Char} (h : isAtomChar c = true) : isSeparator c = false ∧ c ≠ ';' := by
  simp only [isAtomChar, Bool.and_eq_true, Bool.not_eq_true', List.contains_eq_mem,
    decide_eq_false_iff_not] at h
  refine ⟨?_, fun hc => h.2 (by rw [hc]; decide)⟩
  rw [isSeparator, h.1, Bool.false_or, decide_eq_false_iff_not]
  exact fun hc => h.2 (by rw [hc]; decide)

lemma isAtomChar_of_not_mark {c : Char} (hsep : isSeparator c = false) (hsemi : c ≠ ';')
    (hmark : c ∉ markChars) : isAtomChar c = true := by
  have hends : atomEnds ⊆ ',' :: ';' :: markChars := by decide
  simp only [isSeparator, Bool.or_eq_false_iff, decide_eq_false_iff_not] at hsep
  simp only [isAtomChar, hsep.1, Bool.not_false, Bool.true_and, Bool.not_eq_true', List.contains_eq_mem,
    decide_eq_false_iff_not]
  intro hmem
  rcases List.mem_cons.1 (hends hmem) with h | h
  · exact hsep.2 h
  · rcases List.mem_cons.1 h with h | h
    · exact hsemi h
    · exact hmark h

end Bilisp
