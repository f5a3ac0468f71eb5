import Bilisp.Number.Double
import Mathlib.Tactic

/-!
# Rounding to binary floating point

A positive quotient lies in one binade: it has 53 bits in front of the place of exactly one exponent, or fewer
in front of the least one (`Binade.unique`). So rounding depends on the value of the quotient only, it gives
regular numbers, and it gives a regular number back from its own value.
-/

namespace Bilisp.Double

/-- Whether a number is represented in the way that rounding gives: with a mantissa of 53 bits, or with fewer bits at
the least exponent. -/
def IsRegular : Double → Prop
  | .nan => True
  | .infinite _ => True
  | .finite _ mantissa exponent =>
    mantissa < 2 ^ 53 ∧ (2 ^ 52 ≤ mantissa ∨ exponent = leastExponent) ∧ leastExponent ≤ exponent ∧
      exponent ≤ greatestExponent

/-- Whether a positive rational number has its 53 leading bits in front of the place of an exponent, or fewer
in front of the least one. -/
def Binade (q : ℚ) (e : ℤ) : Prop :=
  leastExponent ≤ e ∧ q < 2 ^ 53 * 2 ^ e ∧ (e = leastExponent ∨ 2 ^ 52 * 2 ^ e ≤ q)

lemma Binade.unique {q : ℚ} {e e' : ℤ} (h : Binade q e) (h' : Binade q e') : e = e' := by
  have hlt : ∀ {a b : ℤ}, Binade q a → Binade q b → ¬a < b := by
    rintro a b ⟨ha, hupper, -⟩ ⟨hb, -, hlower⟩ hab
    have hpow : (2 : ℚ) ^ 53 * 2 ^ a ≤ 2 ^ 52 * 2 ^ b := by
      have hstep : (2 : ℚ) ^ 53 * 2 ^ a = 2 ^ 52 * 2 ^ (a + 1) := by
        rw [zpow_add₀ two_ne_zero, zpow_one]
        ring
      rw [hstep]
      exact mul_le_mul_of_nonneg_left (zpow_le_zpow_right₀ one_le_two hab) (by positivity)
    rcases hlower with rfl | hlower
    · omega
    · linarith
  have h1 := hlt h h'
  have h2 := hlt h' h
  omega

lemma scaled_pos (num : ℕ) {den : ℕ} (hden : 0 < den) (e : ℤ) : 0 < (scaled num den e).2 := by
  rw [scaled]
  split
  · exact Nat.mul_pos hden (Nat.pow_pos two_pos)
  · exact hden

lemma scaled_div (num den : ℕ) (e : ℤ) :
    ((scaled num den e).1 : ℚ) / (scaled num den e).2 = num / den / 2 ^ e := by
  rw [scaled]
  split
  next h =>
    lift e to ℕ using h
    simp only [Int.toNat_natCast, Nat.pow_eq, Nat.cast_mul, Nat.cast_pow, Nat.cast_ofNat, zpow_natCast]
    rw [div_div]
  next h =>
    obtain ⟨k, rfl⟩ : ∃ k : ℕ, e = -k := ⟨(-e).toNat, by omega⟩
    simp only [neg_neg, Int.toNat_natCast, Nat.pow_eq, Nat.cast_mul, Nat.cast_pow, Nat.cast_ofNat, zpow_neg,
      zpow_natCast, div_inv_eq_mul]
    ring

lemma binade_iff_scaled {num den : ℕ} (hden : 0 < den) (e : ℤ) :
    Binade (num / den) e ↔ leastExponent ≤ e ∧ (scaled num den e).1 < 2 ^ 53 * (scaled num den e).2 ∧
      (e = leastExponent ∨ 2 ^ 52 * (scaled num den e).2 ≤ (scaled num den e).1) := by
  have hpow : (0 : ℚ) < 2 ^ e := by positivity
  have hd : (0 : ℚ) < (scaled num den e).2 := by exact_mod_cast scaled_pos num hden e
  have hdiv := scaled_div num den e
  have hupper : (num / den : ℚ) < 2 ^ 53 * 2 ^ e ↔
      (scaled num den e).1 < 2 ^ 53 * (scaled num den e).2 := by
    rw [← div_lt_iff₀ hpow, ← hdiv, div_lt_iff₀ hd]
    exact_mod_cast Iff.rfl
  have hlower : (2 ^ 52 * 2 ^ e : ℚ) ≤ num / den ↔
      2 ^ 52 * (scaled num den e).2 ≤ (scaled num den e).1 := by
    rw [← le_div_iff₀ hpow, ← hdiv, le_div_iff₀ hd]
    exact_mod_cast Iff.rfl
  rw [Binade, hupper, hlower]

lemma binade_exponentOf {num den : ℕ} (hnum : 0 < num) (hden : 0 < den) :
    Binade (num / den) (exponentOf num den) := by
  have hn1 : (2 : ℚ) ^ (Nat.log2 num : ℤ) ≤ num := by
    exact_mod_cast Nat.log2_self_le hnum.ne'
  have hn2 : (num : ℚ) < 2 ^ ((Nat.log2 num : ℤ) + 1) := by
    exact_mod_cast Nat.lt_log2_self
  have hd1 : (2 : ℚ) ^ (Nat.log2 den : ℤ) ≤ den := by
    exact_mod_cast Nat.log2_self_le hden.ne'
  have hd2 : (den : ℚ) < 2 ^ ((Nat.log2 den : ℤ) + 1) := by
    exact_mod_cast Nat.lt_log2_self
  have hn : (0 : ℚ) < num := by exact_mod_cast hnum
  have hd : (0 : ℚ) < den := by exact_mod_cast hden
  have hlow : (2 : ℚ) ^ 52 * 2 ^ ((Nat.log2 num : ℤ) - Nat.log2 den - 53) ≤ num / den := by
    rw [le_div_iff₀ hd]
    refine le_trans (mul_le_mul_of_nonneg_left hd2.le (by positivity)) (le_trans (le_of_eq ?_) hn1)
    have h52 : (2 : ℚ) ^ 52 = 2 ^ (52 : ℤ) := by norm_cast
    rw [h52, ← zpow_add₀ two_ne_zero, ← zpow_add₀ two_ne_zero]
    congr 1
    ring
  have hhigh : (num / den : ℚ) < 2 ^ 54 * 2 ^ ((Nat.log2 num : ℤ) - Nat.log2 den - 53) := by
    rw [div_lt_iff₀ hd]
    refine lt_of_lt_of_le hn2 (le_trans (le_of_eq ?_) (mul_le_mul_of_nonneg_left hd1 (by positivity)))
    have h54 : (2 : ℚ) ^ 54 = 2 ^ (54 : ℤ) := by norm_cast
    rw [h54, ← zpow_add₀ two_ne_zero, ← zpow_add₀ two_ne_zero]
    congr 1
    ring
  rw [exponentOf]
  generalize hE : (Nat.log2 num : ℤ) - Nat.log2 den - 53 = E at hlow hhigh
  have hdpos := scaled_pos num hden (max E leastExponent)
  have hfloor : Nat.pow 2 53 ≤ (scaled num den (max E leastExponent)).1 /
        (scaled num den (max E leastExponent)).2 ↔
      (2 : ℚ) ^ 53 * 2 ^ max E leastExponent ≤ num / den := by
    rw [Nat.le_div_iff_mul_le hdpos, ← le_div_iff₀ (by positivity), ← scaled_div,
      le_div_iff₀ (by exact_mod_cast hdpos)]
    exact_mod_cast Iff.rfl
  have hmono : (2 : ℚ) ^ E ≤ 2 ^ max E leastExponent := zpow_le_zpow_right₀ one_le_two (le_max_left _ _)
  have hnext : (2 : ℚ) ^ (max E leastExponent + 1) = 2 * 2 ^ max E leastExponent := by
    rw [zpow_add₀ two_ne_zero, zpow_one, mul_comm]
  dsimp only
  split
  next h =>
    rw [hfloor] at h
    refine ⟨by omega, ?_, .inr ?_⟩
    · rw [hnext]
      linarith
    · rw [hnext]
      linarith
  next h =>
    rw [hfloor, not_le] at h
    refine ⟨le_max_right _ _, h, ?_⟩
    rcases max_cases E leastExponent with ⟨hmax, -⟩ | ⟨hmax, -⟩
    · rw [hmax]
      exact .inr hlow
    · rw [hmax]
      exact .inl rfl

lemma exponentOf_eq {num den : ℕ} {e : ℤ} (hnum : 0 < num) (hden : 0 < den) (h : Binade (num / den) e) :
    exponentOf num den = e := (binade_exponentOf hnum hden).unique h

/-! ## Rounding -/

lemma roundHalfEven_mul (m d : ℕ) (hd : 0 < d) : roundHalfEven (m * d) d = m := by
  simp [roundHalfEven, hd]

lemma roundHalfEven_mul_mul (n d c : ℕ) (hc : 0 < c) : roundHalfEven (n * c) (d * c) = roundHalfEven n d := by
  have hmod : 2 * (n * c % (d * c)) = 2 * (n % d) * c := by rw [Nat.mul_mod_mul_right, Nat.mul_assoc]
  simp only [roundHalfEven, Nat.mul_div_mul_right n d hc, hmod, gt_iff_lt, Nat.mul_lt_mul_right hc]

lemma roundHalfEven_bounds {n d a b : ℕ} (hd : 0 < d) (hlow : a * d ≤ n) (hhigh : n < b * d) :
    a ≤ roundHalfEven n d ∧ roundHalfEven n d ≤ b := by
  have h1 : a ≤ n / d := (Nat.le_div_iff_mul_le hd).2 hlow
  have h2 : n / d < b := (Nat.div_lt_iff_lt_mul hd).2 hhigh
  simp only [roundHalfEven]
  split_ifs <;> omega

/-- A sign put on a number. -/
def signed (negative : Bool) : Double → Double
  | .nan => .nan
  | .infinite _ => .infinite negative
  | .finite _ mantissa exponent => .finite negative mantissa exponent

lemma ofQuotient_signed (negative : Bool) (num den : ℕ) :
    ofQuotient negative num den = (ofQuotient false num den).signed negative := by
  simp only [ofQuotient, zeroOf]
  split_ifs <;> rfl

lemma scaled_mul (num den c : ℕ) (e : ℤ) :
    scaled (num * c) (den * c) e = ((scaled num den e).1 * c, (scaled num den e).2 * c) := by
  simp only [scaled]
  split
  · rw [Nat.mul_right_comm]
  · rw [Nat.mul_right_comm]

/-- Rounding depends on the value of a quotient only. -/
lemma ofQuotient_mul (negative : Bool) (num : ℕ) {den c : ℕ} (hden : 0 < den) (hc : 0 < c) :
    ofQuotient negative (num * c) (den * c) = ofQuotient negative num den := by
  rcases Nat.eq_zero_or_pos num with rfl | hnum
  · simp [ofQuotient]
  · have hvalue : ((num * c : ℕ) : ℚ) / (den * c : ℕ) = num / den := by
      push_cast
      exact mul_div_mul_right _ _ (by exact_mod_cast hc.ne')
    have hexp : exponentOf (num * c) (den * c) = exponentOf num den :=
      exponentOf_eq (Nat.mul_pos hnum hc) (Nat.mul_pos hden hc) (hvalue ▸ binade_exponentOf hnum hden)
    have hne : num * c ≠ 0 := (Nat.mul_pos hnum hc).ne'
    simp only [ofQuotient, hne, hnum.ne', if_false, hexp, scaled_mul, roundHalfEven_mul_mul _ _ _ hc]

/-- Rounding gives regular numbers. -/
lemma isRegular_ofQuotient (negative : Bool) (num : ℕ) {den : ℕ} (hden : 0 < den) :
    (ofQuotient negative num den).IsRegular := by
  rcases Nat.eq_zero_or_pos num with rfl | hnum
  · exact ⟨by norm_num, .inr rfl, le_rfl, by decide⟩
  · obtain ⟨hleast, hupper, hlower⟩ := (binade_iff_scaled hden _).1 (binade_exponentOf hnum hden)
    have hdpos := scaled_pos num hden (exponentOf num den)
    simp only [ofQuotient, hnum.ne', if_false]
    generalize exponentOf num den = e at *
    have hround := roundHalfEven_bounds hdpos (Nat.zero_mul _ ▸ Nat.zero_le _) hupper
    split
    next hcarry =>
      dsimp only
      split
      · trivial
      · exact ⟨by norm_num, .inl (by norm_num), by omega, by omega⟩
    next hcarry =>
      dsimp only
      split
      · trivial
      · refine ⟨lt_of_le_of_ne hround.2 hcarry, ?_, hleast, by omega⟩
        rcases hlower with hlower | hlower
        · exact .inr hlower
        · exact .inl (roundHalfEven_bounds hdpos hlower hupper).1

/-- A regular number is the rounding of its own value. -/
lemma ofQuotient_quotient {negative : Bool} {mantissa : ℕ} {exponent : ℤ} (hpos : 0 < mantissa)
    (h : (finite negative mantissa exponent).IsRegular) :
    ofQuotient false (quotient mantissa exponent).1 (quotient mantissa exponent).2 =
      .finite false mantissa exponent := by
  obtain ⟨hmant, hnormal, hleast, hgreatest⟩ := h
  have hq : 0 < (quotient mantissa exponent).1 ∧ 0 < (quotient mantissa exponent).2 := by
    rw [quotient]
    split
    · exact ⟨Nat.mul_pos hpos (Nat.pow_pos two_pos), one_pos⟩
    · exact ⟨hpos, Nat.pow_pos two_pos⟩
  obtain ⟨hnum, hden⟩ := hq
  have hscaled : (scaled (quotient mantissa exponent).1 (quotient mantissa exponent).2 exponent).1 =
      mantissa * (scaled (quotient mantissa exponent).1 (quotient mantissa exponent).2 exponent).2 := by
    rw [quotient, scaled]
    split <;> simp [*]
  have hdpos := scaled_pos (quotient mantissa exponent).1 hden exponent
  have hexp : exponentOf (quotient mantissa exponent).1 (quotient mantissa exponent).2 = exponent := by
    apply exponentOf_eq hnum hden
    rw [binade_iff_scaled hden, hscaled]
    refine ⟨hleast, Nat.mul_lt_mul_of_pos_right hmant hdpos, ?_⟩
    rcases hnormal with hnormal | hnormal
    · exact .inr (Nat.mul_le_mul_right _ hnormal)
    · exact .inl hnormal
  have hcarry : mantissa ≠ Nat.pow 2 53 := by
    intro heq
    rw [heq] at hmant
    exact absurd hmant (by norm_num)
  simp only [ofQuotient, hnum.ne', if_false, hexp]
  rw [hscaled, roundHalfEven_mul _ _ hdpos, if_neg hcarry]
  simp only [if_neg (not_lt.2 hgreatest)]

end Bilisp.Double
