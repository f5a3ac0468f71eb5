import Bilisp.Proofs.Numerals
import Mathlib.Data.Nat.Digits.Lemmas

/-!
# Numbers with a radix

The digits of a number with a radix are handed to the reader of integers, which takes letters and digits of a value
below the base and adds them up by their places. But it also lets the mark of a base stand in front of them, so
`2r0b1` is read like `2r1` (`readNumber_radix`).
-/

namespace Bilisp

/-! ## Digits of a base -/

/-- The value of a letter or digit of ASCII as a digit, zero for other characters. -/
def digitValue (c : Char) : Nat := (asciiDigitValue? c).getD 0

/-- Whether a text is one or more letters and digits of ASCII, each of a value below the base. -/
def IsDigitRun (base : Nat) (t : Text) : Prop :=
  t ≠ [] ∧ ∀ c ∈ t, ∃ d < base, asciiDigitValue? c = some d

/-- The sum of the values of the digits, each times the power of the base for its place. Places are counted from
the end of the text. -/
def placeValue (base : Nat) (t : Text) : Nat :=
  ((t.map digitValue).reverse.mapIdx fun place d => d * base ^ place).sum

/-- The places can be summed from the first digit on. -/
lemma digitsValue_eq_placeValue (base : Nat) (t : Text) : digitsValue base digitValue t 0 = placeValue base t := by
  have hstep : (fun n d : Nat => d + base * n) = fun n d => n * base + d := by
    funext n d
    ring
  rw [placeValue, ← Nat.ofDigits_eq_sum_mapIdx, Nat.ofDigits_eq_foldr, List.foldr_reverse, digitsValue,
    ← List.foldl_map, ← hstep]
  rfl

lemma isDigitRun_cons {base : Nat} {c : Char} {t : Text} :
    IsDigitRun base (c :: t) ↔ (∃ d < base, asciiDigitValue? c = some d) ∧ (t = [] ∨ IsDigitRun base t) := by
  rw [IsDigitRun, List.forall_mem_cons, and_iff_right (List.cons_ne_nil c t), IsDigitRun]
  refine and_congr_right fun _ => ?_
  cases t with
  | nil => simp
  | cons d t => simp

lemma digitBelow?_eq_some_iff {base d : Nat} {c : Char} :
    digitBelow? base c = some d ↔ d < base ∧ asciiDigitValue? c = some d := by
  rw [digitBelow?, Option.filter_eq_some_iff, decide_eq_true_eq, and_comm]

lemma digitsBehind?_cons_cons {base value : Nat} {c e : Char} {t : Text} (he : e ≠ '_') :
    digitsBehind? base value (c :: e :: t) =
      (digitBelow? base c).bind fun d => digitsBehind? base (value * base + d) (e :: t) := by
  rw [digitsBehind?]
  · rfl
  all_goals simp [he]

lemma digitsValue_cons {base value d : Nat} {c : Char} (hd : asciiDigitValue? c = some d) (t : Text) :
    digitsValue base digitValue (c :: t) value = digitsValue base digitValue t (value * base + d) := by
  rw [digitsValue, List.foldl_cons, digitValue, hd]
  rfl

/-- Without underscores, what is read behind other digits is a run of digits, which go on with their value. -/
lemma digitsBehind?_eq_some_iff {base value n : Nat} {t : Text} (ht : '_' ∉ t) :
    digitsBehind? base value t = some n ↔ IsDigitRun base t ∧ digitsValue base digitValue t value = n := by
  -- each digit moves on the value read before it, so that value is general
  induction t generalizing value with
  | nil => simp [digitsBehind?, IsDigitRun]
  | cons c t ih =>
    have htail : '_' ∉ t := fun h => ht (List.mem_cons_of_mem c h)
    rw [isDigitRun_cons]
    cases t with
    | nil =>
      simp only [digitsBehind?, Option.map_eq_some_iff, digitBelow?_eq_some_iff, true_or, and_true]
      constructor
      · rintro ⟨d, ⟨hlt, hd⟩, rfl⟩
        exact ⟨⟨d, hlt, hd⟩, digitsValue_cons hd []⟩
      · rintro ⟨⟨d, hlt, hd⟩, rfl⟩
        exact ⟨d, ⟨hlt, hd⟩, (digitsValue_cons hd []).symm⟩
    | cons e t =>
      have he : e ≠ '_' := fun h => htail (h ▸ List.mem_cons_self)
      simp only [digitsBehind?_cons_cons he, Option.bind_eq_some_iff, digitBelow?_eq_some_iff, ih htail,
        List.cons_ne_nil, false_or]
      constructor
      · rintro ⟨d, ⟨hlt, hd⟩, hrun, rfl⟩
        exact ⟨⟨⟨d, hlt, hd⟩, hrun⟩, digitsValue_cons hd (e :: t)⟩
      · rintro ⟨⟨⟨d, hlt, hd⟩, hrun⟩, rfl⟩
        exact ⟨d, ⟨hlt, hd⟩, hrun, (digitsValue_cons hd (e :: t)).symm⟩

/-! ## Marks of a base -/

/-- The letters that mark a base behind a zero. -/
def markLetters : List (Nat × Char) := [(2, 'b'), (2, 'B'), (8, 'o'), (8, 'O'), (16, 'x'), (16, 'X')]

/-- Whether a text is made of digits and, perhaps, the mark of the base in front of them. -/
def MayMark (base : Nat) (t digits : Text) : Prop :=
  t = digits ∨ ∃ letter, (base, letter) ∈ markLetters ∧ t = '0' :: letter :: digits

lemma baseMark?_of_mem {base : Nat} {letter : Char} (h : (base, letter) ∈ markLetters) :
    some letter.toLower = baseMark? base := by
  have hall : ∀ entry ∈ markLetters, some entry.2.toLower = baseMark? entry.1 := by decide
  exact hall _ h

lemma eq_or_eq_of_toLower {c low : Char} (hlow : low ∈ ['b', 'o', 'x']) (h : c.toLower = low) :
    c = low ∨ c = low.toUpper := by
  by_cases hc : c ≤ 'z'
  · have hall : (['b', 'o', 'x'].all fun low => c.toLower != low || c == low || c == low.toUpper) = true :=
      forall_ascii (p := fun c => (['b', 'o', 'x'].all fun low =>
        c.toLower != low || c == low || c == low.toUpper) = true) (by decide) hc
    simpa [h] using List.all_eq_true.1 hall low hlow
  · have hupper : ¬(c ≤ 'Z') := fun hle => hc (Char.le_trans hle (by decide))
    have hkept : c.toLower = c := dif_neg fun hc' => hupper hc'.2
    exact .inl (hkept.symm.trans h)

lemma mem_markLetters {base : Nat} {c : Char} (h : some c.toLower = baseMark? base) : (base, c) ∈ markLetters := by
  unfold baseMark? at h
  split_ifs at h with h16 h8 h2
  · subst h16
    rcases eq_or_eq_of_toLower (by decide) (Option.some_inj.1 h) with rfl | rfl <;> decide
  · subst h8
    rcases eq_or_eq_of_toLower (by decide) (Option.some_inj.1 h) with rfl | rfl <;> decide
  · subst h2
    rcases eq_or_eq_of_toLower (by decide) (Option.some_inj.1 h) with rfl | rfl <;> decide

/-- The letter of a mark is no digit of the base, so no run of digits begins with a mark. -/
lemma not_isDigitRun_mark {base : Nat} {letter : Char} (h : (base, letter) ∈ markLetters) (t : Text) :
    ¬IsDigitRun base ('0' :: letter :: t) := by
  have hall : ∀ entry ∈ markLetters, entry.1 ≤ digitValue entry.2 := by decide
  rintro ⟨-, hdigits⟩
  obtain ⟨d, hlt, hd⟩ := hdigits letter (by simp)
  have hle := hall _ h
  rw [digitValue, hd, Option.getD_some] at hle
  omega

lemma dropBaseMark_mark {base : Nat} {letter : Char} (h : (base, letter) ∈ markLetters) {t : Text} (ht : '_' ∉ t) :
    dropBaseMark base ('0' :: letter :: t) = t := by
  simp only [dropBaseMark, if_pos (baseMark?_of_mem h)]
  split
  · simp at ht
  · rfl

lemma dropBaseMark_of_not_mark {base : Nat} {t : Text}
    (h : ∀ letter rest, t = '0' :: letter :: rest → (base, letter) ∉ markLetters) : dropBaseMark base t = t := by
  unfold dropBaseMark
  split
  next c rest => rw [if_neg fun hc => h c rest rfl (mem_markLetters hc)]
  next => rfl

/-- Of a text without underscores, the mark of the base is dropped if there is one. -/
lemma mayMark_dropBaseMark (base : Nat) {t : Text} (ht : '_' ∉ t) : MayMark base t (dropBaseMark base t) := by
  by_cases hmark : ∃ letter rest, (base, letter) ∈ markLetters ∧ t = '0' :: letter :: rest
  · obtain ⟨letter, rest, hletter, rfl⟩ := hmark
    have hrest : '_' ∉ rest := fun hmem => ht (by simp [hmem])
    exact .inr ⟨letter, hletter, by rw [dropBaseMark_mark hletter hrest]⟩
  · exact .inl (dropBaseMark_of_not_mark fun letter rest heq hletter => hmark ⟨letter, rest, hletter, heq⟩).symm

/-- A run of digits is what is left when the mark of the base is dropped. -/
lemma dropBaseMark_of_mayMark {base : Nat} {t digits : Text} (ht : '_' ∉ t) (hmark : MayMark base t digits)
    (hrun : IsDigitRun base digits) : dropBaseMark base t = digits := by
  rcases hmark with rfl | ⟨letter, hletter, rfl⟩
  · refine dropBaseMark_of_not_mark fun letter rest heq hletter => ?_
    rw [heq] at hrun
    exact not_isDigitRun_mark hletter rest hrun
  · exact dropBaseMark_mark hletter fun hmem => ht (by simp [hmem])

/-- A text without underscores is read as a run of digits behind the mark of the base, if there is one. -/
lemma readDigits?_eq_some_iff_of_not_mem {base n : Nat} {t : Text} (ht : '_' ∉ t) :
    readDigits? base t = some n ↔
      ∃ digits, MayMark base t digits ∧ IsDigitRun base digits ∧ placeValue base digits = n := by
  have hmark := mayMark_dropBaseMark base ht
  have hunderscore : '_' ∉ dropBaseMark base t := by
    intro hmem
    apply ht
    rcases hmark with heq | ⟨letter, -, heq⟩
    · rwa [heq]
    · rw [heq]
      simp [hmem]
  rw [readDigits?, digitsBehind?_eq_some_iff hunderscore, digitsValue_eq_placeValue]
  constructor
  · rintro ⟨hrun, hvalue⟩
    exact ⟨_, hmark, hrun, hvalue⟩
  · rintro ⟨digits, hdigits, hrun, hvalue⟩
    rw [dropBaseMark_of_mayMark ht hdigits hrun]
    exact ⟨hrun, hvalue⟩

lemma underscore_not_mem {t : Text} (ht : t.all isAsciiAlphanumeric = true) : '_' ∉ t :=
  fun hmem => absurd (List.all_eq_true.1 ht _ hmem) (by decide)

lemma readDigits?_eq_some_iff {base n : Nat} {t : Text} (ht : t.all isAsciiAlphanumeric = true) :
    readDigits? base t = some n ↔
      ∃ digits, MayMark base t digits ∧ IsDigitRun base digits ∧ placeValue base digits = n :=
  readDigits?_eq_some_iff_of_not_mem (underscore_not_mem ht)

/-! ## Reading -/

/-- The parts of a number with a radix: a sign or none, one or two decimal digits for the base, and the letters and
digits behind the `r`. -/
structure RadixParts (sign base digits : Text) : Prop where
  sign : sign = [] ∨ sign = ['+'] ∨ sign = ['-']
  base_length : 0 < base.length ∧ base.length ≤ 2
  base_decimal : base.all isDecimal = true
  digits_ne : digits ≠ []
  digits_alphanumeric : digits.all isAsciiAlphanumeric = true

/-- The text of a number with a radix. -/
def radixText (sign base digits : Text) : Text := sign ++ base ++ 'r' :: digits

/-- The base is checked first, then the digits are read. -/
lemma RadixParts.readNumber_eq {sign base digits : Text} (h : RadixParts sign base digits) :
    readNumber (radixText sign base digits) =
      if decimalNumber base < 2 ∨ 36 < decimalNumber base then .error (.radixOutOfRange (decimalNumber base))
      else (readDigits? (decimalNumber base) digits).elim (.error (.notInBase (decimalNumber base) digits))
        fun value => .ok (.int (signedInt (sign = ['-']) value)) := by
  have hne : base ≠ [] := List.length_pos_iff.1 h.base_length.1
  have hwell : (decide (2 < base.length) || digits.isEmpty || !digits.all isAsciiAlphanumeric) = false := by
    rw [decide_eq_false (Nat.not_lt.2 h.base_length.2), h.digits_alphanumeric, List.isEmpty_eq_false_iff.2 h.digits_ne]
    rfl
  have hmark : ∀ c ∈ ('r' :: digits).head?, isDecimal c = false := by
    rintro _ ⟨⟩
    decide
  rw [radixText, readNumber_append ('r' :: digits) h.sign hne h.base_decimal hmark, numberBehind]
  simp only [hwell, Bool.false_eq_true, if_false, Bool.or_eq_true, decide_eq_true_eq]
  cases readDigits? (decimalNumber base) digits <;> rfl

/-- A number with a radix is read exactly if its base is between two and thirty-six and its letters and digits are
digits of the base, in front of which the mark of the base may stand. Its value is the sum of the digits by their
places, with the sign. Otherwise the base is out of range, or the digits are not of the base. -/
theorem readNumber_radix {sign base digits : Text} (h : RadixParts sign base digits) :
    (∀ v, readNumber (radixText sign base digits) = .ok v ↔
      (2 ≤ decimalNumber base ∧ decimalNumber base ≤ 36) ∧
        ∃ run, MayMark (decimalNumber base) digits run ∧ IsDigitRun (decimalNumber base) run ∧
          v = .int (signedInt (sign = ['-']) (placeValue (decimalNumber base) run))) ∧
    (∀ e, readNumber (radixText sign base digits) = .error e →
      e = if 2 ≤ decimalNumber base ∧ decimalNumber base ≤ 36 then .notInBase (decimalNumber base) digits
        else .radixOutOfRange (decimalNumber base)) := by
  rw [h.readNumber_eq]
  obtain ⟨n, hn⟩ : ∃ n, decimalNumber base = n := ⟨_, rfl⟩
  rw [hn]
  by_cases hrange : 2 ≤ n ∧ n ≤ 36
  · have hread : ∀ value, readDigits? n digits = some value ↔
        ∃ run, MayMark n digits run ∧ IsDigitRun n run ∧ placeValue n run = value :=
      fun value => readDigits?_eq_some_iff h.digits_alphanumeric
    rw [if_neg (by omega), if_pos hrange]
    cases hdigits : readDigits? n digits with
    | some value =>
      rw [hdigits] at hread
      simp only [Option.elim_some, Except.ok.injEq, reduceCtorEq, false_implies, implies_true, and_true]
      intro v
      constructor
      · rintro rfl
        obtain ⟨run, hmark, hrun, rfl⟩ := (hread value).1 rfl
        exact ⟨hrange, run, hmark, hrun, rfl⟩
      · rintro ⟨-, run, hmark, hrun, rfl⟩
        rw [Option.some_inj.1 ((hread _).2 ⟨run, hmark, hrun, rfl⟩)]
    | none =>
      rw [hdigits] at hread
      refine ⟨fun v => iff_of_false (by simp) ?_, fun e he => (Except.error.inj he).symm⟩
      rintro ⟨-, run, hmark, hrun, -⟩
      cases (hread _).2 ⟨run, hmark, hrun, rfl⟩
  · rw [if_pos (by omega), if_neg hrange]
    exact ⟨fun v => iff_of_false (by simp) fun h => hrange h.1, fun e he => (Except.error.inj he).symm⟩

/-- A number in hexadecimal that is marked as one. -/
theorem readNumber_radix_hexadecimal :
    RadixParts "-" "16" "0X1f" ∧ readNumber (radixText "-" "16" "0X1f") = .ok (.int (-31)) := by
  have hparts : RadixParts "-" "16" "0X1f" := by
    constructor <;> decide
  have hrun : IsDigitRun 16 "1f".toList :=
    isDigitRun_cons.2 ⟨⟨1, by decide, rfl⟩, .inr (isDigitRun_cons.2 ⟨⟨15, by decide, rfl⟩, .inl rfl⟩)⟩
  exact ⟨hparts, ((readNumber_radix hparts).1 _).2
    ⟨by decide, "1f".toList, .inr ⟨'X', by decide, rfl⟩, hrun, by decide⟩⟩

/-- The letter of the mark is no digit of base two, yet the number is read. -/
theorem readNumber_radix_marked :
    RadixParts [] "2" "0b1" ∧ ¬IsDigitRun 2 "0b1" ∧ readNumber (radixText [] "2" "0b1") = .ok (.int 1) := by
  have hparts : RadixParts [] "2" "0b1" := by
    constructor <;> decide
  exact ⟨hparts, not_isDigitRun_mark (by decide) ['1'], rfl⟩

end Bilisp
