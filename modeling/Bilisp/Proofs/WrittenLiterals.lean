import Bilisp.Proofs.Scanning

/-!
# Written strings and characters

A written string is read back whatever stands behind it, and a written character whenever no letter or digit
does. Neither spelling holds a line feed.
-/

namespace Bilisp

/-! ## Strings -/

lemma scanString_plain {c : Char} (t : Text) (hquote : c ≠ '"') (hslash : c ≠ '\\') :
    scanString (c :: t) = (scanString t).behind [c] c := by
  rw [scanString]
  all_goals simp_all

lemma scanString_escape {c value : Char} (t : Text) (hc : c ≠ 'u') (h : stringEscape? c = some value) :
    scanString ('\\' :: c :: t) = (scanString t).behind ['\\', c] value := by
  rw [scanString]
  all_goals simp_all

lemma scanString_code {a b c d : Char} (t : Text) (h : [a, b, c, d].all isHexDigit = true) :
    scanString ('\\' :: 'u' :: a :: b :: c :: d :: t) =
      (scanString t).behind ['\\', 'u', a, b, c, d] (characterOfDigits [a, b, c, d]) := by
  rw [scanString]
  simp [h]

/-- A control character is written by its code. -/
lemma controlCode_spec (n : Nat) (h : n < 128) : ∃ a b c d,
    paddedNumeral 16 4 n = [a, b, c, d] ∧ [a, b, c, d].all isHexDigit = true ∧
      characterOfDigits [a, b, c, d] = Char.ofNat n ∧ '\n' ∉ [a, b, c, d] := by
  have hall : ∀ n < 128, paddedNumeral 16 4 n = ['0', '0', digitChar (n / 16), digitChar (n % 16)] ∧
      ['0', '0', digitChar (n / 16), digitChar (n % 16)].all isHexDigit = true ∧
      characterOfDigits ['0', '0', digitChar (n / 16), digitChar (n % 16)] = Char.ofNat n ∧
      '\n' ∉ ['0', '0', digitChar (n / 16), digitChar (n % 16)] := by
    decide +kernel
  exact ⟨'0', '0', digitChar (n / 16), digitChar (n % 16), hall n h⟩

/-- A character of a string is written by the letter or mark of its escape, or by its code, or as it is. -/
lemma stringCharText_cases (c : Char) :
    (∃ mark, mark ≠ 'u' ∧ mark ≠ '\n' ∧ stringEscape? mark = some c ∧ stringCharText c = ['\\', mark]) ∨
    (c.toNat < 128 ∧ stringCharText c = "\\u" ++ paddedNumeral 16 4 c.toNat) ∨
    (c ≠ '"' ∧ c ≠ '\\' ∧ c ≠ '\n' ∧ stringCharText c = [c]) := by
  by_cases hc : c ∈ ['\n', '\t', '\r', '\x08', '\x0c', '\\', '"']
  · left
    simp only [List.mem_cons, List.not_mem_nil, or_false] at hc
    rcases hc with rfl | rfl | rfl | rfl | rfl | rfl | rfl
    · exact ⟨'n', by decide, by decide, rfl, rfl⟩
    · exact ⟨'t', by decide, by decide, rfl, rfl⟩
    · exact ⟨'r', by decide, by decide, rfl, rfl⟩
    · exact ⟨'b', by decide, by decide, rfl, rfl⟩
    · exact ⟨'f', by decide, by decide, rfl, rfl⟩
    · exact ⟨'\\', by decide, by decide, rfl, rfl⟩
    · exact ⟨'"', by decide, by decide, rfl, rfl⟩
  · simp only [List.mem_cons, List.not_mem_nil, or_false, not_or] at hc
    obtain ⟨hline, htab, hreturn, hback, hfeed, hslash, hquote⟩ := hc
    simp only [stringCharText, hline, htab, hreturn, hback, hfeed, hslash, hquote, if_false, decide_false, Bool.or_self,
      Bool.false_eq_true]
    split
    next hcontrol =>
      simp only [Bool.or_eq_true, decide_eq_true_eq] at hcontrol
      exact .inr (.inl ⟨by omega, rfl⟩)
    next => exact .inr (.inr ⟨hquote, hslash, hline, rfl⟩)

lemma scanString_stringCharText (c : Char) (t : Text) :
    scanString (stringCharText c ++ t) = (scanString t).behind (stringCharText c) c := by
  rcases stringCharText_cases c with ⟨mark, hmark, -, hvalue, htext⟩ | ⟨hcode, htext⟩ | ⟨hquote, hslash, -, htext⟩
  · rw [htext]
    exact scanString_escape t hmark hvalue
  · obtain ⟨a, b, c', d, hdigits, hhex, hvalue, -⟩ := controlCode_spec c.toNat hcode
    rw [Char.ofNat_toNat] at hvalue
    rw [htext, hdigits]
    exact (scanString_code t hhex).trans (by rw [hvalue]; rfl)
  · rw [htext]
    exact scanString_plain t hquote hslash

lemma scanString_flatMap (value rest : Text) :
    scanString (value.flatMap stringCharText ++ '"' :: rest) =
      .closed value (value.flatMap stringCharText ++ ['"']) rest := by
  induction value with
  | nil => rfl
  | cons c value ih =>
    rw [List.flatMap_cons, List.append_assoc, scanString_stringCharText, ih]
    simp [StringScan.behind]

/-- A written string is read as its value, whatever follows it. -/
theorem scans_string (value rest : Text) :
    Scans (stringText value ++ rest) (.string value) (stringText value) rest := by
  refine ⟨'"', value.flatMap stringCharText ++ '"' :: rest, by simp [stringText], by decide, by decide, ?_⟩
  change scanStringToken _ = _
  rw [scanStringToken, scanString_flatMap]
  rfl

/-- A written string is the first token of every text that begins with it, wherever the text begins, and the scanner
goes on behind it. -/
theorem tokensFrom_stringText (value rest : Text) (p : Position) :
    tokensFrom p (stringText value ++ rest) =
      .next ⟨.string value, stringText value, p.span (stringText value)⟩
        (tokensFrom (p.after (stringText value)) rest) :=
  tokensFrom_of_scans (scans_string value rest) p

lemma newline_not_mem_stringCharText (c : Char) : '\n' ∉ stringCharText c := by
  rcases stringCharText_cases c with ⟨mark, -, hmark, -, htext⟩ | ⟨hcode, htext⟩ | ⟨-, -, hline, htext⟩
  · rw [htext]
    simp [hmark.symm]
  · obtain ⟨a, b, c', d, hdigits, -, -, hline⟩ := controlCode_spec c.toNat hcode
    rw [htext, hdigits, List.mem_append, not_or]
    exact ⟨by decide, hline⟩
  · rw [htext]
    simpa using Ne.symm hline

lemma newline_not_mem_stringText (value : Text) : '\n' ∉ stringText value := by
  simp [stringText, newline_not_mem_stringCharText]

/-! ## Characters -/

/-- A character is written as a backslash in front of a name of it. Behind its first character the name is
made of letters. -/
lemma characterText_spec (c : Char) : ∃ d name, characterText [c] = '\\' :: d :: name ∧
    readCharacterName (d :: name) = .ok c ∧ name.all isAlphanumeric = true ∧ '\n' ∉ d :: name := by
  unfold characterText
  split
  next name value hfind =>
    have hmem := List.mem_of_find?_eq_some hfind
    obtain rfl : value = c := by simpa using List.find?_some hfind
    simp only [characterNames, List.mem_cons, Prod.mk.injEq, List.not_mem_nil, or_false] at hmem
    rcases hmem with ⟨rfl, rfl⟩ | ⟨rfl, rfl⟩ | ⟨rfl, rfl⟩ | ⟨rfl, rfl⟩ | ⟨rfl, rfl⟩ | ⟨rfl, rfl⟩
    all_goals exact ⟨_, _, rfl, rfl, by decide, by decide⟩
  next hfind =>
    refine ⟨c, [], rfl, rfl, rfl, ?_⟩
    rw [List.find?_eq_none] at hfind
    intro hline
    obtain rfl : '\n' = c := by simpa using hline
    exact hfind ("newline", '\n') (by decide) (by decide)

/-- A written character is read as itself, unless a letter or digit follows. -/
theorem scans_character (c : Char) {rest : Text} (hrest : ∀ d ∈ rest.head?, isAlphanumeric d = false) :
    Scans (characterText [c] ++ rest) (.character c) (characterText [c]) rest := by
  obtain ⟨d, name, htext, hread, hname, -⟩ := characterText_spec c
  have hspan : (name ++ rest).takeWhile isAlphanumeric = name ∧
      (name ++ rest).dropWhile isAlphanumeric = rest := by
    rw [List.all_eq_true] at hname
    rw [List.takeWhile_append_of_pos hname, List.dropWhile_append_of_pos hname]
    cases rest with
    | nil => simp
    | cons e rest => simp [hrest e rfl]
  rw [htext]
  refine ⟨'\\', d :: (name ++ rest), rfl, by decide, by decide, ?_⟩
  change scanCharacter (d :: (name ++ rest)) = _
  simp only [scanCharacter, hspan.1, hspan.2, hread]

/-- A written character that no letter or digit follows is the first token there, wherever its text begins, and the
scanner goes on behind it. -/
theorem tokensFrom_characterText (c : Char) {rest : Text} (hrest : ∀ d ∈ rest.head?, isAlphanumeric d = false)
    (p : Position) :
    tokensFrom p (characterText [c] ++ rest) =
      .next ⟨.character c, characterText [c], p.span (characterText [c])⟩
        (tokensFrom (p.after (characterText [c])) rest) :=
  tokensFrom_of_scans (scans_character c hrest) p

/-- The character `u` in front of what would not be its code. -/
theorem tokensFrom_characterText_mark :
    (∀ d ∈ "-0041".toList.head?, isAlphanumeric d = false) ∧
      tokensFrom .origin (characterText ['u'] ++ "-0041") =
        .next ⟨.character 'u', characterText ['u'], Position.origin.span (characterText ['u'])⟩
          (tokensFrom (Position.origin.after (characterText ['u'])) "-0041") := by
  have hrest : ∀ d ∈ "-0041".toList.head?, isAlphanumeric d = false := by
    rintro _ ⟨⟩
    decide
  exact ⟨hrest, tokensFrom_characterText 'u' hrest .origin⟩

lemma newline_not_mem_characterText (c : Char) : '\n' ∉ characterText [c] := by
  obtain ⟨d, name, htext, -, -, hline⟩ := characterText_spec c
  rw [htext, List.mem_cons, not_or]
  exact ⟨by decide, hline⟩

end Bilisp
