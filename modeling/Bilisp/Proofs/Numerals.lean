import Bilisp.Number.Printer
import Bilisp.Number.Reader
import Bilisp.Proofs.CharClasses
import Mathlib.Algebra.Ring.Nat

/-!
# Written whole numbers

A numeral is made of digits of its base, and the digits give the number back. Integers, unsigned integers and
ratios are therefore read back from their spellings as the same kind of number.
-/

namespace Bilisp

/-- The value that digits give behind the digits read before. -/
def digitsValue (base : Nat) (value : Char → Nat) (t : Text) (before : Nat) : Nat :=
  t.foldl (fun n c => n * base + value c) before

section Numeral

variable {base : Nat} (hbase : 1 < base)

include hbase

lemma digitsValue_numeralBefore {value : Char → Nat} (hvalue : ∀ d < base, value (digitChar d) = d)
    (n : Nat) (written : Text) :
    digitsValue base value (numeralBefore base n written) 0 = digitsValue base value written n := by
  fun_induction numeralBefore base n written with
  | case1 n written h hlt ih =>
    rw [ih, digitsValue, List.foldl_cons, hvalue _ (Nat.mod_lt _ (by omega)), Nat.div_add_mod']
    rfl
  | case2 n written h =>
    rw [digitsValue, List.foldl_cons, hvalue n (by omega), Nat.zero_mul, Nat.zero_add]
    rfl

lemma all_numeralBefore {p : Char → Bool} (hp : ∀ d < base, p (digitChar d) = true) (n : Nat)
    {written : Text} (hwritten : written.all p = true) : (numeralBefore base n written).all p = true := by
  fun_induction numeralBefore base n written with
  | case1 n written h hlt ih =>
    apply ih
    rw [List.all_cons, hp _ (Nat.mod_lt _ (by omega)), hwritten]
    rfl
  | case2 n written h =>
    rw [List.all_cons, hp n (by omega), hwritten]
    rfl

lemma length_numeralBefore (n : Nat) (written : Text) : ∃ k,
    (numeralBefore base n written).length = k + 1 + written.length ∧
      n < base ^ (k + 1) ∧ (0 < n → base ^ k ≤ n) := by
  fun_induction numeralBefore base n written with
  | case1 n written h hlt ih =>
    obtain ⟨k, hlen, hupper, hlower⟩ := ih
    refine ⟨k + 1, by rw [hlen, List.length_cons]; omega, ?_, fun _ => ?_⟩
    · rw [Nat.pow_succ]
      exact (Nat.div_lt_iff_lt_mul (by omega)).1 hupper
    · rw [Nat.pow_succ]
      exact (Nat.le_div_iff_mul_le (by omega)).1 (hlower (Nat.div_pos h.1 (by omega)))
  | case2 n written h =>
    refine ⟨0, by rw [List.length_cons]; omega, ?_, fun hn => ?_⟩
    · rw [Nat.zero_add, Nat.pow_one]
      omega
    · rw [Nat.pow_zero]
      omega

end Numeral

/-! ## Decimal numerals -/

lemma isDecimal_digitChar (d : Nat) (h : d < 10) : isDecimal (digitChar d) = true := by
  have hall : ∀ d < 10, isDecimal (digitChar d) = true := by decide
  exact hall d h

lemma decimalValue?_digitChar (d : Nat) (h : d < 10) : (decimalValue? (digitChar d)).getD 0 = d := by
  have hall : ∀ d < 10, (decimalValue? (digitChar d)).getD 0 = d := by decide
  exact hall d h

lemma natText_ne_nil (n : Nat) : natText n ≠ [] := by
  obtain ⟨k, hlen, -⟩ := length_numeralBefore (by decide : 1 < 10) n []
  intro h
  rw [← numeral, ← natText, h] at hlen
  simp at hlen

lemma all_isDecimal_natText (n : Nat) : (natText n).all isDecimal = true :=
  all_numeralBefore (by decide) isDecimal_digitChar n rfl

@[simp] lemma decimalNumber_natText (n : Nat) : decimalNumber (natText n) = n :=
  digitsValue_numeralBefore (by decide) decimalValue?_digitChar n []

/-! ## Hexadecimal numerals -/

lemma all_isHexDigit_numeral (n : Nat) : (numeral 16 n).all isHexDigit = true := by
  have hall : ∀ d < 16, isHexDigit (digitChar d) = true := by decide
  exact all_numeralBefore (by decide) hall n rfl

lemma hexValue_numeral (n : Nat) :
    (numeral 16 n).foldl (fun value c => value * 16 + (asciiDigitValue? c).getD 0) 0 = n := by
  have hall : ∀ d < 16, (asciiDigitValue? (digitChar d)).getD 0 = d := by decide
  exact digitsValue_numeralBefore (by decide) hall n []

lemma numeral_ne_nil (n : Nat) : numeral 16 n ≠ [] := by
  obtain ⟨k, hlen, -⟩ := length_numeralBefore (by decide : 1 < 16) n []
  intro h
  rw [← numeral, h] at hlen
  simp at hlen

/-! ## Reading -/

lemma takeWhile_dropWhile_append {p : Char → Bool} {t : Text} (rest : Text) (ht : t.all p = true)
    (hrest : ∀ c ∈ rest.head?, p c = false) :
    (t ++ rest).takeWhile p = t ∧ (t ++ rest).dropWhile p = rest := by
  rw [List.all_eq_true] at ht
  rw [List.takeWhile_append_of_pos ht, List.dropWhile_append_of_pos ht]
  cases rest with
  | nil => simp
  | cons c rest => simp [hrest c rfl]

/-- A sign, a run of digits and what stands behind it are found again in the text that they make. -/
lemma readNumber_append {sign digits : Text} (behind : Text)
    (hsign : sign = [] ∨ sign = ['+'] ∨ sign = ['-'])
    (hne : digits ≠ []) (hdigits : digits.all isDecimal = true)
    (hbehind : ∀ c ∈ behind.head?, isDecimal c = false) :
    readNumber (sign ++ digits ++ behind) = numberBehind (sign ++ digits ++ behind) sign digits behind := by
  obtain ⟨htake, hdrop⟩ := takeWhile_dropWhile_append behind hdigits hbehind
  cases digits with
  | nil => exact absurd rfl hne
  | cons d digits =>
    have hd : isDecimal d = true := by
      rw [List.all_cons, Bool.and_eq_true] at hdigits
      exact hdigits.1
    have hmarks : d ≠ '#' ∧ d ≠ '+' ∧ d ≠ '-' := by
      refine ⟨?_, ?_, ?_⟩ <;> (rintro rfl; revert hd; decide)
    have htakeSign : takeSign (sign ++ (d :: digits) ++ behind) = (sign, d :: digits ++ behind) := by
      rcases hsign with rfl | rfl | rfl
      · rw [takeSign]
        all_goals simp_all
      · rfl
      · rfl
    rw [readNumber]
    · rw [htakeSign]
      simp only [htake, hdrop, List.isEmpty_cons, Bool.false_eq_true, if_false]
    · intro name heq
      rcases hsign with rfl | rfl | rfl <;> simp_all

/-- The sign in front of a number. -/
def signText (negative : Bool) : Text := if negative then ['-'] else []

lemma signText_cases (negative : Bool) :
    signText negative = [] ∨ signText negative = ['+'] ∨ signText negative = ['-'] := by
  cases negative <;> simp [signText]

lemma decide_signText (negative : Bool) : decide (signText negative = ['-']) = negative := by
  cases negative <;> rfl

lemma intText_eq (n : Int) : intText n = signText (decide (n < 0)) ++ natText n.natAbs := by
  rw [intText]
  split <;> simp [signText, *]

lemma signedInt_natAbs (n : Int) : signedInt (decide (n < 0)) n.natAbs = n := by
  by_cases h : n < 0
  · rw [signedInt, if_pos (decide_eq_true h)]
    omega
  · rw [signedInt, if_neg (by simpa using h)]
    omega

@[simp] theorem readNumber_intText (n : Int) : readNumber (intText n) = .ok (.int n) := by
  have h := readNumber_append [] (signText_cases (decide (n < 0))) (natText_ne_nil n.natAbs)
    (all_isDecimal_natText n.natAbs) (by simp)
  rw [List.append_nil, ← intText_eq] at h
  rw [h, numberBehind, decide_signText, decimalNumber_natText, signedInt_natAbs]

theorem readNumber_ratioText (q : Rat) :
    readNumber (intText q.num ++ "/" ++ natText q.den) = .ok (.ratio q) := by
  have h := readNumber_append ('/' :: natText q.den) (signText_cases (decide (q.num < 0)))
    (natText_ne_nil q.num.natAbs) (all_isDecimal_natText q.num.natAbs)
    (by intro c hc; obtain rfl : '/' = c := by simpa using hc
        decide)
  rw [← intText_eq] at h
  have hrun : isDecimalRun (natText q.den) = true := by
    rw [isDecimalRun, all_isDecimal_natText, Bool.and_true]
    simp [natText_ne_nil]
  have htext : intText q.num ++ "/" ++ natText q.den = intText q.num ++ '/' :: natText q.den := by
    simp
  rw [htext, h, numberBehind]
  simp only [hrun, Bool.not_true, Bool.false_eq_true, if_false, decimalNumber_natText, q.den_nz,
    decide_signText, signedInt_natAbs, Rat.mkRat_self]

theorem readNumber_unsignedText (n : Nat) : readNumber ("0x" ++ numeral 16 n) = .ok (.unsigned n) := by
  have h := readNumber_append ('x' :: numeral 16 n) (.inl rfl) (List.cons_ne_nil '0' []) (by decide) (by
    intro c hc
    obtain rfl : 'x' = c := by simpa using hc
    decide)
  have htext : ("0x" : Text) ++ numeral 16 n = [] ++ ['0'] ++ 'x' :: numeral 16 n := by
    simp
  rw [htext, h, numberBehind]
  · simp [all_isHexDigit_numeral, numeral_ne_nil, hexValue_numeral]
  all_goals simp

end Bilisp
