import Bilisp.Proofs.Scanning
import Bilisp.Proofs.WrittenDoubles

/-!
# Written numbers

Every text that is read as a number is made of characters that go on with an atom, and it begins in a way in
which no symbol does. So a text begins with a number token when what it takes is the text of a number
(`scans_number_iff`), and every regular number is read back from its own text in front of everything that ends an
atom (`tokensFrom_numberText`).
-/

namespace Bilisp

/-! ## Regular numbers -/

/-- Whether the number is one of the numbers that are read: any whole number or ratio, or a regular floating
point number. -/
def Number.IsRegular : Number → Prop
  | .double d => d.IsRegular
  | _ => True

/-- A regular number is read back from its text. -/
theorem readNumber_text {v : Number} (h : v.IsRegular) : readNumber v.text = .ok v := by
  cases v with
  | int n => exact readNumber_intText n
  | unsigned n => exact readNumber_unsignedText n
  | ratio q => exact readNumber_ratioText q
  | double d =>
    cases d with
    | nan => rfl
    | infinite negative => cases negative <;> rfl
    | finite negative mantissa exponent =>
      have hread := readNumber_magnitudeText negative h
      cases negative with
      | true => exact hread
      | false => exact hread

lemma isRegular_decimalDouble (negative : Bool) (whole fraction : Text) (exponent : Int) :
    (decimalDouble negative whole fraction exponent).IsRegular := Double.isRegular_ofDecimal _ _ _

lemma isRegular_of_numberBehind {t sign digits behind : Text} {v : Number}
    (h : numberBehind t sign digits behind = .ok v) : v.IsRegular := by
  unfold numberBehind at h
  split at h
  · cases h
    trivial
  · cases h
    trivial
  · split at h
    · cases h
      exact isRegular_decimalDouble _ _ _ _
    · cases h
  · split_ifs at h
    cases h
    trivial
  · dsimp only at h
    split_ifs at h
    split at h
    · cases h
      trivial
    · cases h
  · split_ifs at h
    · split at h
      · cases h
        exact isRegular_decimalDouble _ _ _ _
      · cases h
    · cases h
      trivial

/-- Only regular numbers are read. -/
theorem isRegular_of_readNumber {t : Text} {v : Number} (h : readNumber t = .ok v) : v.IsRegular := by
  unfold readNumber at h
  split at h
  · split at h
    next constant hfind =>
      cases h
      obtain ⟨entry, hentry, rfl⟩ := Option.map_eq_some_iff.1 hfind
      have hmem := List.mem_of_find?_eq_some hentry
      have hall : ∀ entry ∈ numericConstants, entry.2 = .nan ∨ ∃ b, entry.2 = .infinite b := by
        simp [numericConstants]
      rcases hall entry hmem with heq | ⟨b, heq⟩
      · rw [heq]
        trivial
      · rw [heq]
        trivial
    next => cases h
  · dsimp only at h
    split_ifs at h
    exact isRegular_of_numberBehind h

/-! ## Characters of numbers -/

lemma all_isAtomChar_of_isDecimalRun {t : Text} (h : isDecimalRun t = true) : t.all isAtomChar = true := by
  rw [isDecimalRun, Bool.and_eq_true, List.all_eq_true] at h
  rw [List.all_eq_true]
  exact fun c hc => isAtomChar_of_isDigit (isDigit_of_isDecimal (h.2 c hc))

lemma takeSign_append (t : Text) : (takeSign t).1 ++ (takeSign t).2 = t := by
  unfold takeSign
  split <;> rfl

lemma takeSign_cases (t : Text) : (takeSign t).1 = [] ∨ (takeSign t).1 = ['+'] ∨ (takeSign t).1 = ['-'] := by
  unfold takeSign
  split <;> simp

lemma all_isAtomChar_sign (t : Text) : (takeSign t).1.all isAtomChar = true := by
  rcases takeSign_cases t with h | h | h <;> rw [h] <;> decide

lemma all_isAtomChar_of_readExponent? {t : Text} {e : Int} (h : readExponent? t = some e) :
    t.all isAtomChar = true := by
  simp only [readExponent?] at h
  split_ifs at h with hrun
  rw [← takeSign_append t, List.all_append, all_isAtomChar_sign, all_isAtomChar_of_isDecimalRun hrun]
  rfl

lemma all_isAtomChar_of_readFractionEnd? {t : Text} {e : Int} (h : readFractionEnd? t = some e) :
    t.all isAtomChar = true := by
  unfold readFractionEnd? at h
  split at h
  · rfl
  next c rest =>
    split_ifs at h with hmark
    have hc : isAtomChar c = true := by
      rcases (by simpa using hmark : c = 'e' ∨ c = 'E') with rfl | rfl <;> decide
    rw [List.all_cons, hc, all_isAtomChar_of_readExponent? h]
    rfl

lemma all_isAtomChar_takeWhile_isDecimal (t : Text) : (t.takeWhile isDecimal).all isAtomChar = true := by
  have h : (t.takeWhile isDecimal).all isDecimal = true := List.all_takeWhile
  rw [List.all_eq_true] at h ⊢
  exact fun c hc => isAtomChar_of_isDigit (isDigit_of_isDecimal (h c hc))

lemma all_isAtomChar_of_numberBehind {t sign digits behind : Text} {v : Number}
    (h : numberBehind t sign digits behind = .ok v) : behind.all isAtomChar = true := by
  unfold numberBehind at h
  split at h
  · rfl
  · decide
  next rest =>
    split at h
    next hend =>
      have hpoint : isAtomChar '.' = true := by decide
      have hsplit : rest.takeWhile isDecimal ++ rest.dropWhile isDecimal = rest :=
        List.takeWhile_append_dropWhile
      rw [List.all_cons, hpoint, ← hsplit, List.all_append, all_isAtomChar_takeWhile_isDecimal,
        all_isAtomChar_of_readFractionEnd? hend]
      rfl
    next => cases h
  next denominator =>
    have hslash : isAtomChar '/' = true := by decide
    split_ifs at h with hrun
    rw [List.all_cons, hslash, all_isAtomChar_of_isDecimalRun (by simpa using hrun)]
    rfl
  next rest =>
    have hmark : isAtomChar 'r' = true := by decide
    dsimp only at h
    split_ifs at h with hform
    simp only [Bool.or_eq_true, decide_eq_true_eq, Bool.not_eq_true', not_or, Bool.not_eq_false,
      List.all_eq_true] at hform
    rw [List.all_cons, hmark, Bool.true_and, List.all_eq_true]
    exact fun c hc => isAtomChar_of_isAsciiAlphanumeric (hform.2 c hc)
  next mark rest _ _ _ _ =>
    split_ifs at h with hexp hhex
    · have hmark : isAtomChar mark = true := by
        rcases (by simpa using hexp : mark = 'e' ∨ mark = 'E') with rfl | rfl <;> decide
      split at h
      next hread =>
        rw [List.all_cons, hmark, all_isAtomChar_of_readExponent? hread]
        rfl
      next => cases h
    · simp only [Bool.and_eq_true, Bool.or_eq_true, decide_eq_true_eq, List.all_eq_true] at hhex
      have hmark : isAtomChar mark = true := by
        rcases hhex.1.1.1.1 with rfl | rfl <;> decide
      rw [List.all_cons, hmark, Bool.true_and, List.all_eq_true]
      exact fun c hc => isAtomChar_of_isAsciiAlphanumeric
        (isAsciiAlphanumeric_of_isHexDigit (hhex.2 c hc))

/-- A text that is read as a number goes on with an atom throughout. It begins with a digit, a sign and a digit,
or with the mark of the numeric constants. -/
lemma spelling_of_readNumber {t : Text} {v : Number} (h : readNumber t = .ok v) :
    t.all isAtomChar = true ∧ (startsNumber t = true ∨ ∃ name, t = '#' :: '#' :: name) := by
  unfold readNumber at h
  split at h
  next name =>
    refine ⟨?_, .inr ⟨name, rfl⟩⟩
    split at h
    next constant hfind =>
      obtain ⟨entry, hentry, -⟩ := Option.map_eq_some_iff.1 hfind
      obtain rfl : entry.1 = name := by simpa using List.find?_some hentry
      have hall : ∀ entry ∈ numericConstants, ('#' :: '#' :: entry.1).all isAtomChar = true := by decide
      exact hall entry (List.mem_of_find?_eq_some hentry)
    next => cases h
  next =>
    dsimp only at h
    split_ifs at h with hempty
    have hsplit : t = (takeSign t).1 ++ ((takeSign t).2.takeWhile isDecimal ++
        (takeSign t).2.dropWhile isDecimal) := by
      rw [List.takeWhile_append_dropWhile, takeSign_append]
    constructor
    · rw [hsplit, List.all_append, List.all_append, all_isAtomChar_sign, all_isAtomChar_takeWhile_isDecimal,
        all_isAtomChar_of_numberBehind h]
      rfl
    · left
      cases hdigits : (takeSign t).2.takeWhile isDecimal with
      | nil => simp [hdigits] at hempty
      | cons d digits =>
        have hd : isDigit d = true := by
          apply isDigit_of_isDecimal
          have hall : ((takeSign t).2.takeWhile isDecimal).all isDecimal = true := List.all_takeWhile
          rw [hdigits, List.all_cons, Bool.and_eq_true] at hall
          exact hall.1
        rw [hdigits] at hsplit
        rcases takeSign_cases t with hsign | hsign | hsign <;> rw [hsplit, hsign] <;> simp [startsNumber, hd]

/-! ## Tokens -/

lemma not_mark_of_startsNumber {c : Char} {t : Text} (h : startsNumber (c :: t) = true) : c ∉ markChars := by
  have hmarks : markChars.all (fun d => !isDigit d && d != '+' && d != '-') = true := by decide
  intro hmem
  have hc := List.all_eq_true.1 hmarks c hmem
  simp only [Bool.and_eq_true, Bool.not_eq_true', bne_iff_ne] at hc
  simp [startsNumber, hc] at h

/-- A text begins with a number when what it takes is the text of a number and what it leaves ends an atom. -/
theorem scans_number_iff {t raw rest : Text} {v : Number} :
    Scans t (.number v) raw rest ↔ t = raw ++ rest ∧ readNumber raw = .ok v ∧ EndsAtom rest := by
  constructor
  · rintro ⟨c, tail, rfl, hsep, hsemi, hscan⟩
    obtain ⟨hread, hrest⟩ := scanToken_spelled hsep hsemi hscan
    exact ⟨(scanToken_split hscan).1.symm, hread, hrest⟩
  · rintro ⟨rfl, hread, hrest⟩
    obtain ⟨hatoms, hstart⟩ := spelling_of_readNumber hread
    have hnumber : ∀ lead tail, raw = lead ++ tail → tail.all isAtomChar = true →
        scanNumber lead (tail ++ rest) = .token (.number v) raw rest := by
      intro lead tail hraw htail
      obtain ⟨hpart, hbehind⟩ := atomPart_append htail hrest
      simp only [scanNumber, hpart, hbehind, ← hraw, hread]
    rcases hstart with hstart | ⟨name, rfl⟩
    · cases raw with
      | nil => simp [startsNumber] at hstart
      | cons c tail =>
        rw [List.all_cons, Bool.and_eq_true] at hatoms
        obtain ⟨hsep, hsemi⟩ := not_separator_of_isAtomChar hatoms.1
        refine ⟨c, tail ++ rest, rfl, hsep, hsemi, ?_⟩
        have hstart' : startsNumber (c :: (tail ++ rest)) = true := by
          cases tail with
          | nil =>
            simp only [startsNumber, List.head?_nil, Option.any_none, Bool.and_false, Bool.or_false] at hstart
            simp [startsNumber, hstart]
          | cons d tail => exact hstart
        rw [scanToken_of_not_mark (not_mark_of_startsNumber hstart), hstart', if_pos rfl]
        exact hnumber [c] tail rfl hatoms.2
    · refine ⟨'#', '#' :: (name ++ rest), rfl, by decide, by decide, ?_⟩
      have hname : name.all isAtomChar = true := by
        simp only [List.all_cons, Bool.and_eq_true] at hatoms
        exact hatoms.2.2
      exact hnumber ['#', '#'] name rfl hname

/-- A regular number that is written in front of something that ends an atom is the first token there, wherever its
text begins, and the scanner goes on behind it. The text is read as the same number, of the same kind. -/
theorem tokensFrom_numberText {v : Number} (hv : v.IsRegular) {rest : Text} (hrest : EndsAtom rest) (p : Position) :
    tokensFrom p (v.text ++ rest) =
        .next ⟨.number v, v.text, p.span v.text⟩ (tokensFrom (p.after v.text) rest) ∧
      readNumber v.text = .ok v := by
  have hread := readNumber_text hv
  exact ⟨tokensFrom_of_scans (scans_number_iff.2 ⟨rfl, hread, hrest⟩) p, hread⟩

/-- A ratio that is a whole number stays a ratio. -/
theorem tokensFrom_numberText_wholeRatio :
    (Number.ratio (-3)).IsRegular ∧ EndsAtom ")" ∧ (Number.ratio (-3)).text = "-3/1".toList ∧
      tokensFrom .origin ((Number.ratio (-3)).text ++ ")") =
        .next ⟨.number (.ratio (-3)), (Number.ratio (-3)).text, Position.origin.span (Number.ratio (-3)).text⟩
          (tokensFrom (Position.origin.after (Number.ratio (-3)).text) ")") ∧
      readNumber (Number.ratio (-3)).text = .ok (.ratio (-3)) := by
  have hrest : EndsAtom ")" := by
    rintro _ ⟨⟩
    decide
  have hdigit : ∀ n < 10, natText n = [digitChar n] := by
    intro n hn
    rw [natText, numeral, numeralBefore, dif_neg (by omega)]
  have htext : (Number.ratio (-3)).text = "-3/1".toList := by
    change '-' :: natText 3 ++ "/" ++ natText 1 = _
    rw [hdigit 3 (by decide), hdigit 1 (by decide)]
    rfl
  exact ⟨trivial, hrest, htext, tokensFrom_numberText (v := .ratio (-3)) trivial hrest .origin⟩

end Bilisp
