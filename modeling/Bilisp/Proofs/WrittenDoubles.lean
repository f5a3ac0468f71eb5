import Bilisp.Proofs.Numerals
import Bilisp.Proofs.Rounding

/-!
# Written floating point numbers

A finite number is written with the first decimal that reads back, from coarse to fine; the search ends at the
latest with the decimal that is equal to the number. The digits keep their value when zeros at their end are
left out and when the point or an exponent is put in, so every regular number is read back from its text.
-/

namespace Bilisp

/-! ## Lengths of numerals -/

lemma length_natText_iff {n k : ℕ} (hn : 0 < n) :
    (natText n).length = k + 1 ↔ 10 ^ k ≤ n ∧ n < 10 ^ (k + 1) := by
  obtain ⟨l, hlen, hupper, hlower⟩ := length_numeralBefore (by decide : 1 < 10) n []
  have hlower := hlower hn
  rw [natText, numeral, hlen, List.length_nil, Nat.add_zero, Nat.add_right_cancel_iff]
  constructor
  · rintro rfl
    exact ⟨hlower, hupper⟩
  · rintro ⟨h1, h2⟩
    have hlk := (Nat.pow_lt_pow_iff_right (by decide : 1 < 10)).1 (lt_of_le_of_lt hlower h2)
    have hkl := (Nat.pow_lt_pow_iff_right (by decide : 1 < 10)).1 (lt_of_le_of_lt h1 hupper)
    omega

lemma exists_length_natText {n : ℕ} (hn : 0 < n) :
    ∃ k, (natText n).length = k + 1 ∧ 10 ^ k ≤ n ∧ n < 10 ^ (k + 1) := by
  cases hlen : (natText n).length with
  | zero => exact absurd (List.eq_nil_of_length_eq_zero hlen) (natText_ne_nil n)
  | succ k => exact ⟨k, rfl, (length_natText_iff hn).1 hlen⟩

lemma length_natText_mul_pow {n : ℕ} (hn : 0 < n) (k : ℕ) :
    (natText (n * 10 ^ k)).length = (natText n).length + k := by
  obtain ⟨l, hlen, hlower, hupper⟩ := exists_length_natText hn
  rw [hlen, Nat.add_right_comm, length_natText_iff (Nat.mul_pos hn (Nat.pow_pos (by decide)))]
  refine ⟨?_, ?_⟩
  · rw [Nat.pow_add]
    exact Nat.mul_le_mul_right _ hlower
  · rw [Nat.add_right_comm, Nat.pow_add]
    exact Nat.mul_lt_mul_of_pos_right hupper (Nat.pow_pos (by decide))

namespace Double

/-! ## Decimals -/

lemma ofDecimal_signed (negative : Bool) (digits : ℕ) (scale : ℤ) :
    ofDecimal negative digits scale = (ofDecimal false digits scale).signed negative := by
  simp only [ofDecimal, ofQuotient_signed negative]
  split_ifs <;> rfl

lemma isRegular_ofDecimal (negative : Bool) (digits : ℕ) (scale : ℤ) :
    (ofDecimal negative digits scale).IsRegular := by
  have hzero : (zeroOf negative).IsRegular := ⟨by norm_num, .inr rfl, le_rfl, by decide⟩
  simp only [ofDecimal]
  split_ifs
  · exact hzero
  · trivial
  · exact hzero
  · exact isRegular_ofQuotient _ _ one_pos
  · exact isRegular_ofQuotient _ _ (Nat.pow_pos (by decide))

/-- Zeros at the end of the digits only move the point. -/
lemma ofDecimal_mul_pow (negative : Bool) {digits : ℕ} (hdigits : 0 < digits) (k : ℕ) (scale : ℤ) :
    ofDecimal negative (digits * 10 ^ k) scale = ofDecimal negative digits (scale + k) := by
  have hpow : ∀ n, 0 < 10 ^ n := fun n => Nat.pow_pos (by decide)
  have hplaces : ((natText (digits * 10 ^ k)).length : ℤ) + scale =
      ((natText digits).length : ℤ) + (scale + k) := by
    rw [length_natText_mul_pow hdigits]
    push_cast
    ring
  have hquotient : (if 0 ≤ scale then ofQuotient negative (digits * 10 ^ k * 10 ^ scale.toNat) 1
      else ofQuotient negative (digits * 10 ^ k) (10 ^ (-scale).toNat)) =
      if 0 ≤ scale + k then ofQuotient negative (digits * 10 ^ (scale + k).toNat) 1
      else ofQuotient negative digits (10 ^ (-(scale + k)).toNat) := by
    split
    next h =>
      rw [if_pos (by omega), show (scale + k).toNat = k + scale.toNat by omega, Nat.pow_add, Nat.mul_assoc]
    next h =>
      split
      next h' =>
        rw [show k = (scale + k).toNat + (-scale).toNat by omega, Nat.pow_add, ← Nat.mul_assoc,
          show ((scale + ((scale + k).toNat + (-scale).toNat : ℕ)).toNat) = (scale + k).toNat by omega]
        have hcancel := ofQuotient_mul negative (digits * 10 ^ (scale + k).toNat) one_pos (hpow (-scale).toNat)
        rwa [one_mul] at hcancel
      next h' =>
        rw [show (-scale).toNat = (-(scale + k)).toNat + k by omega, Nat.pow_add]
        exact ofQuotient_mul negative digits (hpow _) (hpow k)
  have hne : digits * 10 ^ k ≠ 0 := (Nat.mul_pos hdigits (hpow k)).ne'
  simp only [ofDecimal, hplaces, hne, hdigits.ne', if_false]
  simp only [Nat.pow_eq, hquotient]

lemma two_pow_lt_ten_pow {n c : ℕ} (hc : 0 < c) (hn : n ≤ 33 * c) : 2 ^ n < 10 ^ (10 * c) :=
  calc 2 ^ n ≤ 2 ^ (33 * c) := Nat.pow_le_pow_right two_pos hn
    _ = (2 ^ 33) ^ c := Nat.pow_mul _ _ _
    _ < (10 ^ 10) ^ c := Nat.pow_lt_pow_left (by norm_num) hc.ne'
    _ = 10 ^ (10 * c) := (Nat.pow_mul _ _ _).symm

/-- A regular number is the rounding of the decimal that is equal to it. -/
lemma ofDecimal_exactDecimal {negative : Bool} {mantissa : ℕ} {exponent : ℤ} (hpos : 0 < mantissa)
    (h : (finite negative mantissa exponent).IsRegular) :
    ofDecimal false (exactDecimal mantissa exponent).digits (exactDecimal mantissa exponent).scale =
      .finite false mantissa exponent := by
  obtain ⟨hmant, -, hleast, hgreatest⟩ := id h
  have hquotient := ofQuotient_quotient hpos h
  obtain ⟨c, hc⟩ : ∃ c : ℕ, c = 33 := ⟨33, rfl⟩
  rw [exactDecimal]
  split
  next hexp =>
    lift exponent to ℕ using hexp
    simp only [greatestExponent] at hgreatest
    have hdigits : 0 < mantissa * 2 ^ exponent := Nat.mul_pos hpos (Nat.pow_pos two_pos)
    obtain ⟨k, hlen, hlower, -⟩ := exists_length_natText hdigits
    have hbound : mantissa * 2 ^ exponent < 10 ^ (10 * c) :=
      calc mantissa * 2 ^ exponent ≤ 2 ^ 53 * 2 ^ exponent := Nat.mul_le_mul_right _ hmant.le
        _ = 2 ^ (53 + exponent) := (Nat.pow_add _ _ _).symm
        _ < 10 ^ (10 * c) := two_pow_lt_ten_pow (by omega) (by omega)
    have hk : k < 10 * c := (Nat.pow_lt_pow_iff_right (by decide : 1 < 10)).1 (lt_of_le_of_lt hlower hbound)
    rw [quotient, if_pos (by omega)] at hquotient
    simp only [Int.toNat_natCast, Nat.pow_eq] at hquotient ⊢
    simp only [ofDecimal, hdigits.ne', hlen, if_false]
    rw [if_neg (by push_cast; omega), if_neg (by push_cast; omega), if_pos le_rfl]
    simpa using hquotient
  next hexp =>
    obtain ⟨n, rfl⟩ : ∃ n : ℕ, exponent = -n := ⟨(-exponent).toNat, by omega⟩
    have hn : 0 < n := by omega
    simp only [leastExponent] at hleast
    have hdigits : 0 < mantissa * 5 ^ n := Nat.mul_pos hpos (Nat.pow_pos (by decide))
    obtain ⟨k, hlen, hlower, hupper⟩ := exists_length_natText hdigits
    have hten : (10 : ℕ) ^ n = 2 ^ n * 5 ^ n := by rw [← Nat.mul_pow]
    have hhigh : k < n + 10 * c := by
      by_contra hle
      have hcontra : 10 ^ n * 10 ^ (10 * c) ≤ 2 ^ 53 * 5 ^ n :=
        calc 10 ^ n * 10 ^ (10 * c) = 10 ^ (n + 10 * c) := (Nat.pow_add _ _ _).symm
          _ ≤ 10 ^ k := Nat.pow_le_pow_right (by decide) (by omega)
          _ ≤ mantissa * 5 ^ n := hlower
          _ ≤ 2 ^ 53 * 5 ^ n := Nat.mul_le_mul_right _ hmant.le
      have hfive : 5 ^ n ≤ 10 ^ n := Nat.pow_le_pow_left (by decide) n
      have hlt : 2 ^ 53 * 5 ^ n < 10 ^ (10 * c) * 10 ^ n :=
        Nat.mul_lt_mul_of_lt_of_le (two_pow_lt_ten_pow (by omega) (by omega)) hfive (Nat.pow_pos (by decide))
      rw [Nat.mul_comm (10 ^ n)] at hcontra
      omega
    have hlow : n < k + 1 + 10 * c := by
      by_contra hle
      have hcontra : 5 ^ n * 10 ^ (10 * c) ≤ 5 ^ n * 2 ^ n :=
        calc 5 ^ n * 10 ^ (10 * c) ≤ mantissa * 5 ^ n * 10 ^ (10 * c) :=
              Nat.mul_le_mul_right _ (Nat.le_mul_of_pos_left _ hpos)
          _ ≤ 10 ^ (k + 1) * 10 ^ (10 * c) := Nat.mul_le_mul_right _ hupper.le
          _ = 10 ^ (k + 1 + 10 * c) := by rw [← Nat.pow_add]
          _ ≤ 10 ^ n := Nat.pow_le_pow_right (by decide) (by omega)
          _ = 5 ^ n * 2 ^ n := by rw [hten, Nat.mul_comm]
      have hle' := Nat.le_of_mul_le_mul_left hcontra (Nat.pow_pos (by decide))
      exact absurd (two_pow_lt_ten_pow (by omega) (by omega)) (not_lt.2 hle')
    rw [quotient, if_neg hexp] at hquotient
    simp only [neg_neg, Int.toNat_natCast, Nat.pow_eq] at hquotient ⊢
    simp only [ofDecimal, hdigits.ne', hlen, if_false]
    rw [if_neg (by push_cast; omega), if_neg (by push_cast; omega), if_neg hexp]
    simp only [neg_neg, Int.toNat_natCast, Nat.pow_eq]
    rw [hten, ofQuotient_mul false mantissa (Nat.pow_pos two_pos) (Nat.pow_pos (by decide))]
    exact hquotient

lemma readsBack_of_onGrid? {mantissa : ℕ} {exponent s : ℤ} {d : Decimal}
    (h : onGrid? mantissa exponent s = some d) :
    0 < d.digits ∧ ofDecimal false d.digits d.scale = .finite false mantissa exponent := by
  simp only [onGrid?] at h
  split at h
  next hnear =>
    obtain rfl := Option.some.inj h
    simpa only [Bool.and_eq_true, decide_eq_true_eq] using hnear
  next =>
    rw [Option.ite_none_right_eq_some] at h
    obtain ⟨hother, heq⟩ := h
    obtain rfl := Option.some.inj heq
    simpa only [Bool.and_eq_true, decide_eq_true_eq] using hother

/-- The decimal that a number is written with reads back. -/
lemma readsBack_shortest {negative : Bool} {mantissa : ℕ} {exponent : ℤ} (hpos : 0 < mantissa)
    (h : (finite negative mantissa exponent).IsRegular) :
    0 < (shortest mantissa exponent).digits ∧
      ofDecimal false (shortest mantissa exponent).digits (shortest mantissa exponent).scale =
        .finite false mantissa exponent := by
  have hgrids : ∀ count s, 0 < (firstOnGrid mantissa exponent count s).digits ∧
      ofDecimal false (firstOnGrid mantissa exponent count s).digits
        (firstOnGrid mantissa exponent count s).scale = .finite false mantissa exponent := by
    intro count
    induction count with
    | zero =>
      intro s
      refine ⟨?_, ofDecimal_exactDecimal hpos h⟩
      rw [firstOnGrid, exactDecimal]
      split
      · exact Nat.mul_pos hpos (Nat.pow_pos two_pos)
      · exact Nat.mul_pos hpos (Nat.pow_pos (by decide))
    | succ count ih =>
      intro s
      rw [firstOnGrid]
      cases hgrid : onGrid? mantissa exponent s with
      | none => exact ih (s - 1)
      | some d => exact readsBack_of_onGrid? hgrid
  exact hgrids 19 _

end Double

/-! ## Digits -/

lemma decimalNumber_append (s t : Text) :
    decimalNumber (s ++ t) = decimalNumber s * 10 ^ t.length + decimalNumber t := by
  induction t using List.reverseRecOn with
  | nil => simp [decimalNumber]
  | append_singleton t c ih =>
    have hsnoc : ∀ u, decimalNumber (u ++ [c]) = decimalNumber u * 10 + (decimalValue? c).getD 0 := by
      intro u
      simp [decimalNumber]
    rw [← List.append_assoc, hsnoc, hsnoc, ih, List.length_append, List.length_singleton, Nat.pow_succ]
    ring

lemma decimalNumber_zeros (n : ℕ) : decimalNumber (List.replicate n '0') = 0 := by
  have hzero : (decimalValue? '0').getD 0 = 0 := by decide
  induction n with
  | zero => rfl
  | succ n ih => simpa [decimalNumber, List.replicate_succ, hzero] using ih

lemma all_isDecimal_zeros (n : ℕ) : (List.replicate n '0').all isDecimal = true := by
  have hzero : isDecimal '0' = true := by decide
  simp [hzero]

/-- A text without the zeros at its end, in front of those zeros. -/
lemma exists_zeros (t : Text) : ∃ n, t = (t.reverse.dropWhile (· == '0')).reverse ++ List.replicate n '0' := by
  refine ⟨(t.reverse.takeWhile (· == '0')).length, ?_⟩
  have hzeros : t.reverse.takeWhile (· == '0') =
      List.replicate (t.reverse.takeWhile (· == '0')).length '0' := by
    rw [List.eq_replicate_iff]
    refine ⟨rfl, fun c hc => ?_⟩
    simpa using List.all_eq_true.1 List.all_takeWhile c hc
  have hsplit : t.reverse.takeWhile (· == '0') ++ t.reverse.dropWhile (· == '0') = t.reverse :=
    List.takeWhile_append_dropWhile
  have hreverse := congrArg List.reverse hsplit
  rw [List.reverse_append, List.reverse_reverse] at hreverse
  rw [← List.reverse_replicate, ← hzeros]
  exact hreverse.symm

/-- The digits that a number is written with, and the number of them before the point. -/
lemma significant_shortest {negative : Bool} {mantissa : ℕ} {exponent : ℤ} (hpos : 0 < mantissa)
    (h : (Double.finite negative mantissa exponent).IsRegular) : ∃ digits before,
    (Double.shortest mantissa exponent).significant = (digits, before) ∧ digits ≠ [] ∧
      digits.all isDecimal = true ∧
      Double.ofDecimal negative (decimalNumber digits) (before - digits.length) =
        .finite negative mantissa exponent := by
  obtain ⟨hdigits, hreads⟩ := Double.readsBack_shortest hpos h
  generalize Double.shortest mantissa exponent = d at *
  obtain ⟨n, hn⟩ := exists_zeros (natText d.digits)
  refine ⟨_, _, rfl, ?_⟩
  generalize ((natText d.digits).reverse.dropWhile (· == '0')).reverse = digits at hn
  have hvalue : d.digits = decimalNumber digits * 10 ^ n := by
    have happend := congrArg decimalNumber hn
    rwa [decimalNumber_natText, decimalNumber_append, decimalNumber_zeros, List.length_replicate,
      Nat.add_zero] at happend
  have hnumber : 0 < decimalNumber digits := Nat.pos_of_ne_zero fun hzero => by simp [hvalue, hzero] at hdigits
  have hall := all_isDecimal_natText d.digits
  rw [hn, List.all_append, Bool.and_eq_true] at hall
  refine ⟨?_, hall.1, ?_⟩
  · rintro rfl
    exact absurd hnumber (by decide)
  · rw [hn, List.length_append, List.length_replicate]
    rw [hvalue, Double.ofDecimal_mul_pow false hnumber] at hreads
    rw [Double.ofDecimal_signed, show ((digits.length + n : ℕ) : ℤ) + d.scale - digits.length = d.scale + n by
      push_cast
      ring, hreads]
    rfl

/-! ## Texts -/

lemma readNumber_point (negative : Bool) (whole fraction : Text) (hne : whole ≠ [])
    (hwhole : whole.all isDecimal = true) (hfraction : fraction.all isDecimal = true) :
    readNumber (signText negative ++ whole ++ '.' :: fraction) =
      .ok (decimalDouble negative whole fraction 0) := by
  have h := readNumber_append ('.' :: fraction) (signText_cases negative) hne hwhole (by
    intro c hc
    obtain rfl : '.' = c := by simpa using hc
    decide)
  obtain ⟨htake, hdrop⟩ := takeWhile_dropWhile_append [] hfraction (by simp)
  rw [List.append_nil] at htake hdrop
  rw [h, numberBehind, hdrop, htake, decide_signText]
  rfl

/-- The text of an exponent, behind its mark. -/
def exponentText (e : ℤ) : Text := (if e < 0 then "-" else "+") ++ paddedNumeral 10 2 e.natAbs

lemma readExponent?_exponentText (e : ℤ) : readExponent? (exponentText e) = some e := by
  have hpadded : isDecimalRun (paddedNumeral 10 2 e.natAbs) = true ∧
      decimalNumber (paddedNumeral 10 2 e.natAbs) = e.natAbs := by
    rw [paddedNumeral, ← natText]
    constructor
    · rw [isDecimalRun, List.all_append, all_isDecimal_zeros, all_isDecimal_natText]
      simp [natText_ne_nil]
    · rw [decimalNumber_append, decimalNumber_zeros, decimalNumber_natText, Nat.zero_mul, Nat.zero_add]
  have hsign : takeSign (exponentText e) = (if e < 0 then ['-'] else ['+'], paddedNumeral 10 2 e.natAbs) := by
    rw [exponentText]
    split <;> rfl
  have hnegative : decide ((if e < 0 then ['-'] else ['+']) = ['-']) = decide (e < 0) := by
    split <;> simp [*]
  rw [readExponent?, hsign]
  simp only [hpadded.1, hpadded.2, if_true, hnegative, signedInt_natAbs]

lemma readNumber_exponent (negative : Bool) {whole fraction : Text} (hne : whole ≠ [])
    (hwhole : whole.all isDecimal = true) (hfraction : fraction.all isDecimal = true) (e : ℤ) :
    readNumber (signText negative ++ whole ++ '.' :: (fraction ++ 'e' :: exponentText e)) =
      .ok (decimalDouble negative whole fraction e) := by
  have h := readNumber_append ('.' :: (fraction ++ 'e' :: exponentText e)) (signText_cases negative)
    hne hwhole (by
      intro c hc
      obtain rfl : '.' = c := by simpa using hc
      decide)
  obtain ⟨htake, hdrop⟩ := takeWhile_dropWhile_append ('e' :: exponentText e) hfraction (by
    intro c hc
    obtain rfl : 'e' = c := by simpa using hc
    decide)
  rw [h, numberBehind, hdrop, htake, decide_signText, readFractionEnd?, readExponent?_exponentText]
  rfl

lemma readNumber_wholeExponent (negative : Bool) {whole : Text} (hne : whole ≠ [])
    (hwhole : whole.all isDecimal = true) (e : ℤ) :
    readNumber (signText negative ++ whole ++ 'e' :: exponentText e) =
      .ok (decimalDouble negative whole [] e) := by
  have h := readNumber_append ('e' :: exponentText e) (signText_cases negative) hne hwhole (by
    intro c hc
    obtain rfl : 'e' = c := by simpa using hc
    decide)
  rw [h, numberBehind, readExponent?_exponentText, decide_signText]
  · rfl
  all_goals simp

lemma readNumber_positional (negative : Bool) {digits : Text} (hne : digits ≠ [])
    (hall : digits.all isDecimal = true) (hpos : 0 < decimalNumber digits) (before : ℤ) :
    readNumber (signText negative ++ Double.positional digits before) =
      .ok (.double (.ofDecimal negative (decimalNumber digits) (before - digits.length))) := by
  have hzero : decimalNumber "0" = 0 := by decide
  have hone : ("0" : Text).all isDecimal = true := by decide
  rw [Double.positional]
  split
  next hbefore =>
    have hfraction : (List.replicate (-before).toNat '0' ++ digits).all isDecimal = true := by
      rw [List.all_append, all_isDecimal_zeros, hall]
      rfl
    have h := readNumber_point negative "0" _ (by decide) hone hfraction
    rw [decimalDouble, ← List.append_assoc, decimalNumber_append, decimalNumber_append, hzero,
      decimalNumber_zeros, Nat.zero_mul, Nat.zero_add, List.length_append, List.length_replicate] at h
    rw [show (0 : ℤ) - ((-before).toNat + digits.length : ℕ) = before - digits.length by push_cast; omega] at h
    simpa using h
  next hbefore =>
    dsimp only
    split
    next hlen =>
      have hwhole : (digits ++ List.replicate (before.toNat - digits.length) '0').all isDecimal = true := by
        rw [List.all_append, all_isDecimal_zeros, hall]
        rfl
      have h := readNumber_point negative _ "0" (by simp [hne]) hwhole hone
      rw [decimalDouble, decimalNumber_append, decimalNumber_append, decimalNumber_zeros, hzero,
        Nat.add_zero, Nat.add_zero, List.length_replicate, Nat.mul_assoc, ← Nat.pow_add,
        Double.ofDecimal_mul_pow negative hpos] at h
      rw [show (0 : ℤ) - (("0" : Text).length : ℕ) +
          ((before.toNat - digits.length + ("0" : Text).length : ℕ) : ℤ) = before - digits.length by
        push_cast
        omega] at h
      simpa using h
    next hlen =>
      have hsplit : digits.take before.toNat ++ digits.drop before.toNat = digits :=
        List.take_append_drop _ _
      have hparts := hall
      rw [← hsplit, List.all_append, Bool.and_eq_true] at hparts
      have hwhole : digits.take before.toNat ≠ [] := by
        intro hnil
        have hlength := congrArg List.length hnil
        rw [List.length_take, List.length_nil] at hlength
        omega
      have h := readNumber_point negative _ _ hwhole hparts.1 hparts.2
      rw [decimalDouble, hsplit, List.length_drop,
        show (0 : ℤ) - (digits.length - before.toNat : ℕ) = before - digits.length by omega] at h
      simpa using h

lemma readNumber_scientific (negative : Bool) {digits : Text} (hne : digits ≠ [])
    (hall : digits.all isDecimal = true) (before : ℤ) :
    readNumber (signText negative ++ Double.scientific digits before) =
      .ok (.double (.ofDecimal negative (decimalNumber digits) (before - digits.length))) := by
  cases digits with
  | nil => exact absurd rfl hne
  | cons d digits =>
    rw [List.all_cons, Bool.and_eq_true] at hall
    have hwhole : [d].all isDecimal = true := by simp [hall.1]
    cases digits with
    | nil =>
      have h := readNumber_wholeExponent negative (by simp) hwhole (before - 1)
      rw [decimalDouble] at h
      simpa [Double.scientific, exponentText] using h
    | cons d' digits =>
      have h := readNumber_exponent negative (by simp) hwhole hall.2 (before - 1)
      rw [decimalDouble, List.singleton_append,
        show before - 1 - ((d' :: digits).length : ℤ) = before - ((d :: d' :: digits).length : ℤ) by
          simp only [List.length_cons]
          push_cast
          omega] at h
      simpa [Double.scientific, exponentText] using h

/-- A regular finite number is read back from its text. -/
theorem readNumber_magnitudeText (negative : Bool) {mantissa : ℕ} {exponent : ℤ}
    (h : (Double.finite negative mantissa exponent).IsRegular) :
    readNumber (signText negative ++ Double.magnitudeText mantissa exponent) =
      .ok (.double (.finite negative mantissa exponent)) := by
  rw [Double.magnitudeText]
  split
  next hzero =>
    have hleast : exponent = Double.leastExponent := by
      obtain ⟨-, hnormal | hleast, -⟩ := h
      · rw [hzero] at hnormal
        exact absurd hnormal (by norm_num)
      · exact hleast
    rw [hzero, hleast]
    cases negative <;> rfl
  next hne =>
    obtain ⟨digits, before, hsignificant, hdigits, hall, hvalue⟩ :=
      significant_shortest (Nat.pos_of_ne_zero hne) h
    have hpos : 0 < decimalNumber digits := by
      rcases Nat.eq_zero_or_pos (decimalNumber digits) with hzero | hpos
      · rw [hzero] at hvalue
        simp only [Double.ofDecimal, if_true, Double.zeroOf, Double.finite.injEq] at hvalue
        exact absurd hvalue.2.1.symm hne
      · exact hpos
    rw [hsignificant]
    dsimp only
    split
    · rw [readNumber_positional negative hdigits hall hpos, hvalue]
    · rw [readNumber_scientific negative hdigits hall, hvalue]

end Bilisp
