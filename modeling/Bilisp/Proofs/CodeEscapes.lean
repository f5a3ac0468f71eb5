import Bilisp.Proofs.FirstTokens
import Bilisp.Proofs.RadixNumbers

/-!
# Characters by their codes

A character can be written by its code, behind `\u`, in a string and as a literal of its own. In a string the four
characters of the code have to be hexadecimal digits. For a literal they are handed to the reader of integers, which
takes decimal digits of any script and the mark of base sixteen, too. So a literal may have a value where the escape
of a string has none (`code_escapes`).
-/

namespace Bilisp

/-! ## Hexadecimal digits -/

lemma isHexDigit_iff {c : Char} : isHexDigit c = true ↔ ∃ d < 16, asciiDigitValue? c = some d := by
  have hascii : c ≤ 'z' → isHexDigit c = (asciiDigitValue? c).any fun d => d < 16 :=
    forall_ascii (p := fun c => isHexDigit c = (asciiDigitValue? c).any fun d => d < 16) (by decide)
  constructor
  · intro h
    have hle := le_of_isAsciiAlphanumeric (isAsciiAlphanumeric_of_isHexDigit h)
    rw [hascii hle, Option.any_eq_true] at h
    obtain ⟨d, hd, hlt⟩ := h
    exact ⟨d, of_decide_eq_true hlt, hd⟩
  · rintro ⟨d, hlt, hd⟩
    rw [hascii (le_of_isAsciiAlphanumeric (by rw [isAsciiAlphanumeric, hd]; rfl)), hd]
    exact decide_eq_true hlt

lemma isDigitRun_sixteen_iff {t : Text} : IsDigitRun 16 t ↔ t ≠ [] ∧ t.all isHexDigit = true := by
  simp only [IsDigitRun, List.all_eq_true, isHexDigit_iff]

lemma characterOfDigits_eq (digits : Text) : characterOfDigits digits = characterOfCode (placeValue 16 digits) := by
  rw [← digitsValue_eq_placeValue]
  rfl

lemma toNat_characterOfCode {code : Nat} (h : code.isValidChar) : (characterOfCode code).toNat = code := by
  rw [characterOfCode, if_pos h]
  rw [Char.ofNat, dif_pos h]
  rfl

/-! ## Integers of letters and digits -/

lemma not_isAlphanumeric_of_surroundsInteger {c : Char} (h : surroundsInteger c = true) : isAlphanumeric c = false := by
  have hle : c ≤ 'z' := by
    rw [surroundsInteger, Bool.or_eq_true, decide_eq_true_eq, Bool.and_eq_true, decide_eq_true_eq,
      decide_eq_true_eq] at h
    rcases h with rfl | ⟨-, h⟩
    · decide
    · exact Char.le_trans h (by decide)
  exact forall_ascii (p := fun c => surroundsInteger c = true → isAlphanumeric c = false) (by decide) hle h

/-- What a letter or digit stands for in an integer is no blank, no sign and no underscore. -/
lemma plainIntegerChar_spec {c : Char} (h : isAlphanumeric c = true) :
    surroundsInteger (plainIntegerChar c) = false ∧ plainIntegerChar c ∉ ['+', '-', '_'] := by
  rw [plainIntegerChar]
  split
  next d hd =>
    have hall : ∀ d < 10, surroundsInteger (digitChar d) = false ∧ digitChar d ∉ ['+', '-', '_'] := by decide
    rw [decimalValue?, Option.map_eq_some_iff] at hd
    obtain ⟨start, -, rfl⟩ := hd
    exact hall _ (Nat.mod_lt _ (by decide))
  next =>
    have hblank : isBlank c = false := by
      by_contra hblank
      exact Bool.false_ne_true ((isAlphanumeric_of_isBlank (Bool.not_eq_false _ ▸ hblank)).symm.trans h)
    rw [hblank, Bool.and_false, if_neg Bool.false_ne_true]
    refine ⟨?_, fun hmem => ?_⟩
    · by_contra hsurrounds
      have hnot := not_isAlphanumeric_of_surroundsInteger (Bool.not_eq_false _ ▸ hsurrounds)
      exact Bool.false_ne_true (hnot.symm.trans h)
    · have hmarks : ['+', '-', '_'].all (fun c => !isAlphanumeric c) = true := by decide
      have hnot := List.all_eq_true.1 hmarks c hmem
      rw [h] at hnot
      exact Bool.false_ne_true hnot

/-- Of letters and digits, an integer has neither blanks around it nor a sign. -/
lemma readInteger?_alphanumeric (base : Nat) {t : Text} (h : t.all isAlphanumeric = true) :
    readInteger? base t = (readDigits? base (t.map plainIntegerChar)).map Int.ofNat := by
  have hspec : ∀ c ∈ t.map plainIntegerChar, surroundsInteger c = false ∧ c ∉ ['+', '-', '_'] := by
    intro c hc
    obtain ⟨d, hd, rfl⟩ := List.mem_map.1 hc
    exact plainIntegerChar_spec (List.all_eq_true.1 h d hd)
  have htrim : ∀ u : Text, (∀ c ∈ u, surroundsInteger c = false) → u.dropWhile surroundsInteger = u := by
    intro u hu
    cases u with
    | nil => rfl
    | cons c u => rw [List.dropWhile_cons, hu c List.mem_cons_self, if_neg Bool.false_ne_true]
  have hsign : takeSign (t.map plainIntegerChar) = ([], t.map plainIntegerChar) := by
    cases hplain : t.map plainIntegerChar with
    | nil => rfl
    | cons c u =>
      have hc := (hspec c (hplain ▸ List.mem_cons_self)).2
      rw [takeSign]
      · rintro rest heq
        exact hc (by simp [(List.cons.inj heq).1])
      · rintro rest heq
        exact hc (by simp [(List.cons.inj heq).1])
  rw [readInteger?]
  simp only [htrim _ fun c hc => (hspec c hc).1, htrim _ fun c hc => (hspec c (List.mem_reverse.1 hc)).1,
    List.reverse_reverse, hsign]
  rfl

/-- Letters and digits write the code of a character if they stand for hexadecimal digits, in front of which the mark
of base sixteen may stand. -/
lemma characterOfNumeral?_eq_some_iff {t : Text} {c : Char} (h : t.all isAlphanumeric = true) :
    characterOfNumeral? t = some c ↔ ∃ digits, MayMark 16 (t.map plainIntegerChar) digits ∧
      IsDigitRun 16 digits ∧ c = characterOfCode (placeValue 16 digits) := by
  have hunderscore : '_' ∉ t.map plainIntegerChar := by
    intro hmem
    obtain ⟨d, hd, heq⟩ := List.mem_map.1 hmem
    exact (plainIntegerChar_spec (List.all_eq_true.1 h d hd)).2 (by simp [heq])
  have hread (n : Nat) := @readDigits?_eq_some_iff_of_not_mem 16 n _ hunderscore
  rw [characterOfNumeral?, readInteger?_alphanumeric 16 h]
  cases hdigits : readDigits? 16 (t.map plainIntegerChar) with
  | none =>
    refine iff_of_false (by simp) ?_
    rintro ⟨digits, hmark, hrun, -⟩
    cases hdigits.symm.trans ((hread _).2 ⟨digits, hmark, hrun, rfl⟩)
  | some n =>
    rw [hdigits] at hread
    change some (characterOfCode n) = some c ↔ _
    rw [Option.some_inj]
    constructor
    · rintro rfl
      obtain ⟨digits, hmark, hrun, rfl⟩ := (hread n).1 rfl
      exact ⟨digits, hmark, hrun, rfl⟩
    · rintro ⟨digits, hmark, hrun, rfl⟩
      rw [Option.some_inj.1 ((hread _).2 ⟨digits, hmark, hrun, rfl⟩)]

/-- No name of a character begins with `u` and has four characters more. -/
lemma readCharacterName_code_iff {a b c d value : Char} :
    readCharacterName ['u', a, b, c, d] = .ok value ↔ characterOfNumeral? [a, b, c, d] = some value := by
  have hunnamed : Text.assoc? characterNames ['u', a, b, c, d] = none := rfl
  cases hvalue : characterOfNumeral? [a, b, c, d] with
  | none => simp [readCharacterName, hunnamed, hvalue]
  | some character => simp [readCharacterName, hunnamed, hvalue]

/-! ## Texts of one literal -/

lemma lexemes?_eq_none {c : Char} {t : Text} (hsep : isSeparator c = false) (hsemi : c ≠ ';')
    (h : ∀ l raw rest, scanToken c t ≠ .token l raw rest) : lexemes? (c :: t) = none := by
  rw [lexemes?, tokens, tokensFrom_of_front hsep hsemi, tokensAt]
  cases hscan : scanToken c t with
  | token l raw rest => exact absurd hscan (h l raw rest)
  | rejected lead flagged cause => rfl
  | pastEnd => rfl

/-- A backslash, any character and letters and digits behind it are a character literal or nothing. -/
lemma lexemes?_character_iff {c : Char} {name : Text} (hname : name.all isAlphanumeric = true) {ls : List Lexeme} :
    lexemes? ('\\' :: c :: name) = some ls ↔
      ∃ value, readCharacterName (c :: name) = .ok value ∧ ls = [.character value] := by
  obtain ⟨htake, hdrop⟩ := takeWhile_dropWhile_append [] hname (by simp)
  rw [List.append_nil] at htake hdrop
  have hscan : scanToken '\\' (c :: name) = scanCharacter (c :: name) := rfl
  simp only [scanCharacter, htake, hdrop] at hscan
  cases hread : readCharacterName (c :: name) with
  | ok value =>
    rw [hread] at hscan
    rw [lexemes?_of_scans ⟨'\\', c :: name, rfl, by decide, by decide, hscan⟩]
    simp [eq_comm]
  | error e =>
    rw [hread] at hscan
    rw [lexemes?_eq_none (by decide) (by decide) fun l raw rest heq => by cases hscan.symm.trans heq]
    simp

/-- A string that is made of the escape of one code is a string if the code is four hexadecimal digits. -/
lemma lexemes?_code_iff {a b c d : Char} {ls : List Lexeme} :
    lexemes? ['"', '\\', 'u', a, b, c, d, '"'] = some ls ↔
      [a, b, c, d].all isHexDigit = true ∧ ls = [.string [characterOfDigits [a, b, c, d]]] := by
  by_cases hdigits : [a, b, c, d].all isHexDigit = true
  · have hscan : scanToken '"' ['\\', 'u', a, b, c, d, '"'] =
        .token (.string [characterOfDigits [a, b, c, d]]) ['"', '\\', 'u', a, b, c, d, '"'] [] := by
      change scanStringToken _ = _
      rw [scanStringToken, scanString_code ['"'] hdigits]
      rfl
    rw [lexemes?_of_scans ⟨'"', _, rfl, by decide, by decide, hscan⟩]
    simp [hdigits, eq_comm]
  · have hscan : ∀ l raw rest, scanToken '"' ['\\', 'u', a, b, c, d, '"'] ≠ .token l raw rest := by
      intro l raw rest htoken
      change scanStringToken _ = _ at htoken
      rw [scanStringToken, scanString, if_neg hdigits] at htoken
      split at htoken
      next hclosed => exact shortEscape_ne_closed _ _ _ _ hclosed
      all_goals cases htoken
    rw [lexemes?_eq_none (by decide) (by decide) hscan]
    simp [hdigits]

/-! ## The two escapes -/

/-- Letters and digits of ASCII in front of which no mark of base sixteen stands are the digits of a code
themselves. -/
lemma mayMark_ascii_iff {t digits : Text} (hascii : t.all isAsciiAlphanumeric = true)
    (hmark : ∀ letter rest, t = '0' :: letter :: rest → (16, letter) ∉ markLetters) :
    MayMark 16 (t.map plainIntegerChar) digits ↔ digits = t := by
  have hplain : t.map plainIntegerChar = t := by
    rw [List.all_eq_true] at hascii
    refine (List.map_congr_left fun c hc => ?_).trans t.map_id
    exact forall_ascii (p := fun c => isAsciiAlphanumeric c = true → plainIntegerChar c = c) (by decide)
      (le_of_isAsciiAlphanumeric (hascii c hc)) (hascii c hc)
  rw [hplain, MayMark]
  constructor
  · rintro (rfl | ⟨letter, hletter, heq⟩)
    · rfl
    · exact absurd hletter (hmark letter digits heq)
  · exact fun h => .inl h.symm

/-- Four letters or digits behind `\u` are the code of a character in a string exactly if they are hexadecimal
digits, and the value is then the character with that code. As a literal they are a character exactly if they stand
for hexadecimal digits, decimal digits of any script standing for those of ASCII, or for the mark of base sixteen and
two hexadecimal digits. Every code that a character has is the code of the value. So the literal and the string have
the same value, or both have none, if the four are letters or digits of ASCII and do not begin with the mark. -/
theorem code_escapes {t : Text} (hlength : t.length = 4) (halphanumeric : t.all isAlphanumeric = true) :
    (∀ ls, lexemes? ("\"\\u" ++ t ++ "\"") = some ls ↔
      t.all isHexDigit = true ∧ ls = [.string [characterOfCode (placeValue 16 t)]]) ∧
    (∀ ls, lexemes? ("\\u" ++ t) = some ls ↔
      ∃ digits, MayMark 16 (t.map plainIntegerChar) digits ∧ digits.all isHexDigit = true ∧
        ls = [.character (characterOfCode (placeValue 16 digits))]) ∧
    (∀ code, code.isValidChar → (characterOfCode code).toNat = code) ∧
    (t.all isAsciiAlphanumeric = true → (∀ letter rest, t = '0' :: letter :: rest → (16, letter) ∉ markLetters) →
      ∀ c, lexemes? ("\\u" ++ t) = some [.character c] ↔ lexemes? ("\"\\u" ++ t ++ "\"") = some [.string [c]]) := by
  have hstring : ∀ ls, lexemes? ("\"\\u" ++ t ++ "\"") = some ls ↔
      t.all isHexDigit = true ∧ ls = [.string [characterOfCode (placeValue 16 t)]] := by
    intro ls
    obtain ⟨a, b, c, d, rfl⟩ : ∃ a b c d, t = [a, b, c, d] := List.length_eq_four.1 hlength
    rw [← characterOfDigits_eq]
    exact lexemes?_code_iff
  have hcharacter : ∀ ls, lexemes? ("\\u" ++ t) = some ls ↔
      ∃ digits, MayMark 16 (t.map plainIntegerChar) digits ∧ digits.all isHexDigit = true ∧
        ls = [.character (characterOfCode (placeValue 16 digits))] := by
    intro ls
    have hread : ∀ value, readCharacterName ('u' :: t) = .ok value ↔ characterOfNumeral? t = some value := by
      intro value
      obtain ⟨a, b, c, d, rfl⟩ : ∃ a b c d, t = [a, b, c, d] := List.length_eq_four.1 hlength
      exact readCharacterName_code_iff
    have hne : ∀ digits, MayMark 16 (t.map plainIntegerChar) digits → digits ≠ [] := by
      rintro digits (heq | ⟨letter, -, heq⟩) rfl
      · simpa [hlength] using congrArg List.length heq
      · simpa [hlength] using congrArg List.length heq
    have htext : "\\u".toList ++ t = '\\' :: 'u' :: t := rfl
    rw [htext, lexemes?_character_iff halphanumeric]
    simp only [hread, characterOfNumeral?_eq_some_iff halphanumeric, isDigitRun_sixteen_iff]
    constructor
    · rintro ⟨value, ⟨digits, hmark, ⟨-, hdigits⟩, rfl⟩, rfl⟩
      exact ⟨digits, hmark, hdigits, rfl⟩
    · rintro ⟨digits, hmark, hdigits, rfl⟩
      exact ⟨_, ⟨digits, hmark, ⟨hne digits hmark, hdigits⟩, rfl⟩, rfl⟩
  refine ⟨hstring, hcharacter, fun code hcode => toNat_characterOfCode hcode, fun hascii hmark c => ?_⟩
  rw [hcharacter, hstring]
  simp only [mayMark_ascii_iff hascii hmark, exists_eq_left, List.cons.injEq, and_true, Lexeme.character.injEq,
    Lexeme.string.injEq]

theorem code_escapes_letter :
    "0041".toList.length = 4 ∧ "0041".toList.all isAlphanumeric = true ∧
      lexemes? "\\u0041" = some [.character 'A'] ∧ lexemes? "\"\\u0041\"" = some [.string ['A']] := by
  have halphanumeric : "0041".toList.all isAlphanumeric = true := by decide
  obtain ⟨hstring, hcharacter, -, -⟩ := code_escapes (t := "0041".toList) rfl halphanumeric
  exact ⟨rfl, halphanumeric, (hcharacter _).2 ⟨"0041".toList, .inl (by decide), by decide, by decide⟩,
    (hstring _).2 ⟨by decide, by decide⟩⟩

/-- The mark of base sixteen and digits of another script are read for a literal, but not in a string. -/
theorem code_escapes_differ :
    "0x1f".toList.length = 4 ∧ "0x1f".toList.all isAlphanumeric = true ∧
      lexemes? "\\u0x1f" = some [.character '\x1f'] ∧ lexemes? "\"\\u0x1f\"" = none ∧
      lexemes? "\\u\u0660\u0660\u0664\u0661" = some [.character 'A'] ∧
      lexemes? "\"\\u\u0660\u0660\u0664\u0661\"" = none := by
  have hnone : ∀ {a b c d : Char}, [a, b, c, d].all isHexDigit = false →
      lexemes? ['"', '\\', 'u', a, b, c, d, '"'] = none := by
    intro a b c d hdigits
    rw [Option.eq_none_iff_forall_ne_some]
    intro ls hls
    exact Bool.false_ne_true (hdigits.symm.trans (lexemes?_code_iff.1 hls).1)
  have hmark : characterOfNumeral? ['0', 'x', '1', 'f'] = some '\x1f' :=
    (characterOfNumeral?_eq_some_iff (by decide)).2
      ⟨['1', 'f'], .inr ⟨'x', by decide, by decide⟩, isDigitRun_sixteen_iff.2 ⟨by decide, by decide⟩, by decide⟩
  have hscript : characterOfNumeral? ['\u0660', '\u0660', '\u0664', '\u0661'] = some 'A' :=
    (characterOfNumeral?_eq_some_iff (by decide)).2
      ⟨['0', '0', '4', '1'], .inl (by decide), isDigitRun_sixteen_iff.2 ⟨by decide, by decide⟩, by decide⟩
  refine ⟨rfl, by decide, ?_, hnone (by decide), ?_, hnone (by decide)⟩
  · exact (lexemes?_character_iff (by decide)).2 ⟨_, readCharacterName_code_iff.2 hmark, rfl⟩
  · exact (lexemes?_character_iff (by decide)).2 ⟨_, readCharacterName_code_iff.2 hscript, rfl⟩

end Bilisp
