import Bilisp.Proofs.TakenTokens

/-!
# Strings without end

A source may stop inside a string: behind whole characters, behind the backslash of an escape, or among the digits of
a code. The scanner goes over whole characters one by one (`IsStringBody.scanString_append`), so what it finds at the
end decides the fault (`stops_in_string`). Only in the first case the fault is at the opening quote.
-/

namespace Bilisp

/-! ## Bodies of strings -/

/-- Whether a text inside a string stands for one character: it is the character itself, or its escape, or its
code. -/
inductive IsStringPart : Text → Prop
  | plain {c : Char} (hquote : c ≠ '"') (hslash : c ≠ '\\') : IsStringPart [c]
  | escape {c value : Char} (h : stringEscape? c = some value) : IsStringPart ['\\', c]
  | code {a b c d : Char} (h : [a, b, c, d].all isHexDigit = true) : IsStringPart ['\\', 'u', a, b, c, d]

/-- Whether a text inside a string stands for characters in turn. -/
inductive IsStringBody : Text → Prop
  | nil : IsStringBody []
  | append {part t : Text} (hpart : IsStringPart part) (ht : IsStringBody t) : IsStringBody (part ++ t)

lemma IsStringPart.scanString_append {part : Text} (h : IsStringPart part) :
    ∃ c, ∀ t, scanString (part ++ t) = (scanString t).behind part c := by
  cases h with
  | @plain c hquote hslash => exact ⟨c, fun t => scanString_plain t hquote hslash⟩
  | @escape c value h =>
    refine ⟨value, fun t => scanString_escape t ?_ h⟩
    rintro rfl
    cases h
  | @code a b c d h => exact ⟨characterOfDigits [a, b, c, d], fun t => scanString_code t h⟩

/-- If a text is the rest of no string, no text that stands for characters makes a string of it. The fault stays the
same, behind that text. -/
lemma IsStringBody.scanString_append {body : Text} (h : IsStringBody body) (t : Text) :
    (scanString t = .unfinished → scanString (body ++ t) = .unfinished) ∧
    (scanString t = .pastEnd → scanString (body ++ t) = .pastEnd) ∧
    (∀ lead flagged cause, scanString t = .broken lead flagged cause →
      scanString (body ++ t) = .broken (body ++ lead) flagged cause) := by
  induction h with
  | nil => exact ⟨id, id, fun _ _ _ => id⟩
  | @append part body hpart hbody ih =>
    obtain ⟨c, hscan⟩ := hpart.scanString_append
    obtain ⟨hunfinished, hpastEnd, hbroken⟩ := ih
    rw [List.append_assoc, hscan]
    refine ⟨fun ht => ?_, fun ht => ?_, fun lead flagged cause ht => ?_⟩
    · rw [hunfinished ht, StringScan.behind]
    · rw [hpastEnd ht, StringScan.behind]
    · rw [hbroken lead flagged cause ht, StringScan.behind, List.append_assoc]

/-- At the end of a text, a code of less than four digits is not told from a code. -/
lemma scanString_shortCode {digits : Text} (hlength : digits.length < 4) (hdigits : digits.all isHexDigit = true) :
    scanString ('\\' :: 'u' :: digits) = .pastEnd := by
  have hshort : shortEscape digits = .pastEnd := by
    have htake : digits.take 4 = digits := List.take_of_length_le hlength.le
    have hall : digits.takeWhile isHexDigit = digits := by
      simpa using (takeWhile_dropWhile_append [] hdigits (by simp)).1
    simp only [shortEscape, htake, hall, if_true]
  rw [scanString, hshort]
  rintro a b c d more rfl
  simp only [List.length_cons] at hlength
  omega

/-! ## Sources that stop inside a string -/

/-- Whether a source stops inside a string. Behind tokens and a gap comes an opening quote, behind that the text
`body`, which stands for characters, and then `tail`, which ends the source. -/
structure Text.StopsInString (source before body tail : Text) : Prop where
  text : source = before ++ '"' :: (body ++ tail)
  opens : ∃ ts q gap, Takes .origin source ts q (gap ++ '"' :: (body ++ tail)) ∧ IsGap false gap
  body : IsStringBody body

/-- The scanner comes to the opening quote and scans a string behind it. -/
lemma Text.StopsInString.ending {source before body tail : Text} (h : source.StopsInString before body tail) :
    (tokens source).ending = (tokensAt (Position.origin.after before) ('"' :: (body ++ tail))).ending := by
  obtain ⟨ts, q, gap, htakes, hgap⟩ := h.opens
  obtain ⟨taken, htext, rfl, -⟩ := htakes.cut
  have hbefore : before = taken ++ gap := by
    rw [h.text, ← List.append_assoc] at htext
    exact List.append_cancel_right htext
  rw [tokens, htakes.tokensFrom, Feed.ending_prepend, hgap.tokensFrom_append, ← Position.after_append, ← hbefore,
    tokensFrom_of_front (by decide) (by decide)]

lemma ending_tokensAt_quote {p : Position} {t lead flagged : Text} {cause : Cause}
    (h : scanStringToken t = .rejected lead flagged cause) :
    (tokensAt p ('"' :: t)).ending = .error (.located cause ((p.after lead).span flagged)) := by
  have hscan : scanToken '"' t = .rejected lead flagged cause := h
  rw [tokensAt, hscan]
  rfl

/-- A source that stops inside a string has a fault. If it stops behind whole characters, the string is unclosed from
its opening quote on. If it stops behind a backslash, the string is unclosed, too, but the place of the fault is the
backslash. If it stops among the digits of a code, the scanner runs past its end and there is no diagnostic. -/
theorem stops_in_string {source before body tail : Text} (h : source.StopsInString before body tail) :
    (tail = [] → (tokens source).ending =
      .error (.located (.unclosed ['"']) ((source.place before.length).span ('"' :: body)))) ∧
    (tail = ['\\'] → (tokens source).ending =
      .error (.located (.unclosed ['"']) ((source.place (before.length + 1 + body.length)).span ['\\']))) ∧
    (∀ digits : Text, tail = '\\' :: 'u' :: digits → digits.length < 4 → digits.all isHexDigit = true →
      (tokens source).ending = .error .pastEnd) := by
  obtain ⟨hunfinished, hpastEnd, hbroken⟩ := h.body.scanString_append tail
  have hending := h.ending
  obtain rfl := h.text
  rw [hending]
  refine ⟨?_, ?_, ?_⟩
  · rintro rfl
    have hscan : scanStringToken (body ++ []) = .rejected [] ('"' :: (body ++ [])) (.unclosed ['"']) := by
      rw [scanStringToken, hunfinished rfl]
    rw [ending_tokensAt_quote hscan, ← after_origin_eq_place, List.append_nil]
    rfl
  · rintro rfl
    have hscan : scanStringToken (body ++ ['\\']) = .rejected ('"' :: (body ++ [])) ['\\'] (.unclosed ['"']) := by
      rw [scanStringToken, hbroken [] ['\\'] (.unclosed ['"']) rfl]
    have hplace := after_origin_eq_place (before ++ '"' :: body) ['\\']
    rw [List.append_assoc, List.cons_append, List.length_append, List.length_cons, Nat.add_comm body.length,
      ← Nat.add_assoc] at hplace
    rw [ending_tokensAt_quote hscan, List.append_nil, ← Position.after_append, hplace]
  · rintro digits rfl hlength hdigits
    have hscan : scanToken '"' (body ++ '\\' :: 'u' :: digits) = .pastEnd := by
      change scanStringToken _ = _
      rw [scanStringToken, hpastEnd (scanString_shortCode hlength hdigits)]
    rw [tokensAt, hscan]
    rfl

theorem stops_in_string_behind_escape :
    Text.StopsInString "[\"a\\n" ['['] ['a', '\\', 'n'] [] ∧
      (tokens "[\"a\\n").ending = .error (.located (.unclosed ['"']) ⟨⟨1, 2, 1⟩, ⟨1, 6, 5⟩⟩) := by
  have hbracket : Scans "[\"a\\n" (.opening .square) ['['] ['"', 'a', '\\', 'n'] :=
    ⟨'[', ['"', 'a', '\\', 'n'], rfl, by decide, by decide, rfl⟩
  have htakes := @Takes.next .origin ⟨1, 2, 1⟩ [] ['"', 'a', '\\', 'n'] ['"', 'a', '\\', 'n']
    ⟨.opening .square, ['['], ⟨⟨1, 1, 0⟩, ⟨1, 2, 1⟩⟩⟩ [] .nil rfl hbracket .nil
  have hbody : IsStringBody ['a', '\\', 'n'] :=
    .append (.plain (by decide) (by decide)) (.append (.escape rfl) .nil)
  have hstops : Text.StopsInString "[\"a\\n" ['['] ['a', '\\', 'n'] [] := ⟨rfl, ⟨_, _, [], htakes, .nil⟩, hbody⟩
  exact ⟨hstops, (stops_in_string hstops).1 rfl⟩

/-- The fault of a string without end is not always at its opening quote. -/
theorem unended_string_elsewhere :
    Text.StopsInString "\"\\" [] [] ['\\'] ∧
      (tokens "\"\\").ending = .error (.located (.unclosed ['"']) ⟨⟨1, 2, 1⟩, ⟨1, 3, 2⟩⟩) ∧
      Text.StopsInString "\"\\u12" [] [] ['\\', 'u', '1', '2'] ∧ (tokens "\"\\u12").ending = .error .pastEnd :=
  ⟨⟨rfl, ⟨[], .origin, [], .nil, .nil⟩, .nil⟩, by cbv, ⟨rfl, ⟨[], .origin, [], .nil, .nil⟩, .nil⟩, by cbv⟩

end Bilisp
