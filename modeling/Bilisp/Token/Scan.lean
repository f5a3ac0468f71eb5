import Bilisp.Diagnostic.Basic
import Bilisp.Literal.Character
import Bilisp.Literal.StringText
import Bilisp.Number.Reader
import Bilisp.Symbol.Grammar
import Bilisp.Text.Alphanumeric
import Bilisp.Token.Basic

/-!
# Scanning one token

A scanner looks at the front of a text and either takes a token off it or finds a fault. It does not know
where in the source it stands: it reports what it took, and for a fault the text before the part at fault.
Every token takes at least one character, and what it took and what it left make up the text
(`scanToken_split`).
-/

namespace Bilisp

/-! ## Character classes -/

/-- Whether a character separates tokens. -/
def isSeparator (c : Char) : Bool := isBlank c || c = ','

/-- The characters, blanks aside, that end an atom. -/
def atomEnds : List Char := "()[]\x7b\x7d\";`~,".toList

/-- Whether a symbol, keyword or number goes on with the character. -/
def isAtomChar (c : Char) : Bool := !isBlank c && !atomEnds.contains c

/-- The part of a text that belongs to an atom. -/
def atomPart (t : Text) : Text := t.takeWhile isAtomChar

/-- What follows the part of a text that belongs to an atom. -/
def behindAtom (t : Text) : Text := t.dropWhile isAtomChar

/-! ## Outcomes -/

/-- What a scanner finds: a token with the text it took and the text it left, a fault in `flagged` behind
`lead`, or the end of the text among the digits of an escape. -/
inductive Scan where
  | token (lexeme : Lexeme) (raw rest : Text)
  | rejected (lead flagged : Text) (cause : Cause)
  | pastEnd

namespace Scan

/-- A text that is no token. -/
def invalid (raw reason : Text) : Scan := .rejected [] raw (.invalidToken raw reason)

end Scan

/-! ## Strings -/

/-- What the text behind an opening quote is: a string with the text it took and the text it left, a string
without end, a fault in `flagged` behind `lead`, or the end of the text among the digits of an escape. -/
inductive StringScan where
  | closed (value raw rest : Text)
  | unfinished
  | broken (lead flagged : Text) (cause : Cause)
  | pastEnd

namespace StringScan

/-- The outcome with `raw` in front, which stands for the character `c`. -/
def behind (raw : Text) (c : Char) : StringScan → StringScan
  | .closed value raw' rest => .closed (c :: value) (raw ++ raw') rest
  | .unfinished => .unfinished
  | .broken lead flagged cause => .broken (raw ++ lead) flagged cause
  | .pastEnd => .pastEnd

end StringScan

/-- The character that four hexadecimal digits give by its code. -/
def characterOfDigits (digits : Text) : Char :=
  characterOfCode (digits.foldl (fun code c => code * 16 + (asciiDigitValue? c).getD 0) 0)

/-- The fault of an escape `\u` without four digits behind it. The end of the text is only noticed after the
digits that are there. -/
def shortEscape (behindMark : Text) : StringScan :=
  let digits := (behindMark.take 4).takeWhile isHexDigit
  if digits.length = behindMark.length then .pastEnd
  else
    let flagged : Text := "\\u" ++ digits
    .broken [] flagged (.invalidToken flagged "expected 4 hex digits after \\u")

/-- Scans a string behind its opening quote. -/
def scanString : Text → StringScan
  | [] => .unfinished
  | '"' :: rest => .closed [] ['"'] rest
  | ['\\'] => .broken [] ['\\'] (.unclosed ['"'])
  | '\\' :: 'u' :: rest =>
    match rest with
    | a :: b :: c :: d :: more =>
      if [a, b, c, d].all isHexDigit then
        (scanString more).behind ['\\', 'u', a, b, c, d] (characterOfDigits [a, b, c, d])
      else shortEscape rest
    | _ => shortEscape rest
  | '\\' :: c :: rest =>
    match stringEscape? c with
    | some value => (scanString rest).behind ['\\', c] value
    | none =>
      .broken [] ['\\', c] (.invalidToken ['\\', c] ("invalid string escape sequence '\\" ++ [c] ++ "'"))
  | c :: rest => (scanString rest).behind [c] c

/-- Scans a string token, of which the text behind the opening quote is given. -/
def scanStringToken (rest : Text) : Scan :=
  match scanString rest with
  | .closed value raw rest' => .token (.string value) ('"' :: raw) rest'
  | .unfinished => .rejected [] ('"' :: rest) (.unclosed ['"'])
  | .broken lead flagged cause => .rejected ('"' :: lead) flagged cause
  | .pastEnd => .pastEnd

/-! ## Atoms -/

/-- Scans a number that begins with `lead`. -/
def scanNumber (lead rest : Text) : Scan :=
  let raw := lead ++ atomPart rest
  match readNumber raw with
  | .ok value => .token (.number value) raw (behindAtom rest)
  | .error e => .invalid raw e.message

/-- Scans a symbol that begins with the character `c`. -/
def scanSymbol (c : Char) (rest : Text) : Scan :=
  let raw := c :: atomPart rest
  if isSymbolText raw then .token (.symbol raw) raw (behindAtom rest) else .invalid raw []

/-- Scans what begins with a colon: a keyword, or a symbol if the colon stands alone or is doubled. -/
def scanColon (rest : Text) : Scan :=
  match atomPart rest with
  | [] | ':' :: _ => scanSymbol ':' rest
  | name =>
    if isKeywordName name then .token (.keyword name) (':' :: name) (behindAtom rest)
    else .invalid (':' :: name) []

/-- Scans a character behind its backslash. The first character counts whatever it is, further ones as long
as they are alphanumeric. -/
def scanCharacter : Text → Scan
  | [] => .invalid ['\\'] "unexpected end of input after '\\'"
  | c :: rest =>
    let name := c :: rest.takeWhile isAlphanumeric
    match readCharacterName name with
    | .ok value => .token (.character value) ('\\' :: name) (rest.dropWhile isAlphanumeric)
    | .error e => .invalid ('\\' :: name) e.message

/-- Scans what begins with `#`: a set, a numeric constant, or something that is not supported. -/
def scanHash : Text → Scan
  | '\x7b' :: rest => .token (.opening .hashBrace) ['#', '\x7b'] rest
  | '#' :: rest => scanNumber ['#', '#'] rest
  | rest => .invalid ('#' :: atomPart rest) "unsupported dispatch macro"

/-- Scans the token that begins with the character `c`, which is neither a separator nor the beginning of a
comment. -/
def scanToken (c : Char) (rest : Text) : Scan :=
  match c with
  | '(' => .token (.opening .paren) [c] rest
  | ')' => .token (.closing .paren) [c] rest
  | '[' => .token (.opening .square) [c] rest
  | ']' => .token (.closing .square) [c] rest
  | '\x7b' => .token (.opening .brace) [c] rest
  | '\x7d' => .token (.closing .brace) [c] rest
  | '\'' => .token (.marker .quote) [c] rest
  | '\x60' => .token (.marker .quasiquote) [c] rest
  | '~' =>
    match rest with
    | '@' :: more => .token (.marker .unquoteSplicing) ['~', '@'] more
    | _ => .token (.marker .unquote) ['~'] rest
  | '#' => scanHash rest
  | '"' => scanStringToken rest
  | '\\' => scanCharacter rest
  | ':' => scanColon rest
  | _ =>
    if isDigit c || ((c = '+' || c = '-') && rest.head?.any isDigit) then scanNumber [c] rest
    else scanSymbol c rest

/-! ## What a scanner takes -/

theorem atomPart_append_behindAtom (t : Text) : atomPart t ++ behindAtom t = t :=
  List.takeWhile_append_dropWhile

theorem shortEscape_ne_closed (t value raw rest : Text) : shortEscape t ≠ .closed value raw rest := by
  unfold shortEscape
  dsimp only
  split <;> exact StringScan.noConfusion

theorem StringScan.split_of_behind {s : StringScan} {lead value raw rest t : Text} {c : Char}
    (h : s.behind lead c = .closed value raw rest)
    (ih : ∀ {value raw rest}, s = .closed value raw rest → raw ++ rest = t) :
    raw ++ rest = lead ++ t := by
  cases s <;> simp only [StringScan.behind, StringScan.closed.injEq, reduceCtorEq] at h
  obtain ⟨-, rfl, rfl⟩ := h
  simp [ih rfl]

theorem scanString_split {t value raw rest : Text} (h : scanString t = .closed value raw rest) :
    raw ++ rest = t := by
  fun_induction scanString t generalizing value raw rest with
  | case1 => cases h
  | case2 => cases h; rfl
  | case3 => cases h
  | case4 a b c d more _ ih => exact StringScan.split_of_behind h ih
  | case5 => exact absurd h (shortEscape_ne_closed _ _ _ _)
  | case6 => exact absurd h (shortEscape_ne_closed _ _ _ _)
  | case7 _ _ _ _ _ ih => exact StringScan.split_of_behind h ih
  | case8 => cases h
  | case9 _ _ _ _ _ _ ih => exact StringScan.split_of_behind h ih

theorem scanNumber_split {lead t raw rest : Text} {l : Lexeme}
    (h : scanNumber lead t = .token l raw rest) : raw ++ rest = lead ++ t ∧ lead.length ≤ raw.length := by
  simp only [scanNumber] at h
  split at h <;> simp only [Scan.invalid, Scan.token.injEq, reduceCtorEq] at h
  obtain ⟨-, rfl, rfl⟩ := h
  simp [atomPart_append_behindAtom]

theorem scanSymbol_split {c : Char} {t raw rest : Text} {l : Lexeme}
    (h : scanSymbol c t = .token l raw rest) : raw ++ rest = c :: t ∧ 0 < raw.length := by
  simp only [scanSymbol] at h
  split at h <;> simp only [Scan.invalid, Scan.token.injEq, reduceCtorEq] at h
  obtain ⟨-, rfl, rfl⟩ := h
  simp [atomPart_append_behindAtom]

theorem scanColon_split {t raw rest : Text} {l : Lexeme} (h : scanColon t = .token l raw rest) :
    raw ++ rest = ':' :: t ∧ 0 < raw.length := by
  simp only [scanColon] at h
  split at h
  · exact scanSymbol_split h
  · exact scanSymbol_split h
  · split at h <;> simp only [Scan.invalid, Scan.token.injEq, reduceCtorEq] at h
    obtain ⟨-, rfl, rfl⟩ := h
    simp [atomPart_append_behindAtom]

theorem scanCharacter_split {t raw rest : Text} {l : Lexeme} (h : scanCharacter t = .token l raw rest) :
    raw ++ rest = '\\' :: t ∧ 0 < raw.length := by
  cases t with
  | nil => simp [scanCharacter, Scan.invalid] at h
  | cons c t =>
    simp only [scanCharacter] at h
    split at h <;> simp only [Scan.invalid, Scan.token.injEq, reduceCtorEq] at h
    obtain ⟨-, rfl, rfl⟩ := h
    simp

theorem scanHash_split {t raw rest : Text} {l : Lexeme} (h : scanHash t = .token l raw rest) :
    raw ++ rest = '#' :: t ∧ 0 < raw.length := by
  unfold scanHash at h
  split at h
  · simp only [Scan.token.injEq] at h
    obtain ⟨-, rfl, rfl⟩ := h
    simp
  · obtain ⟨hsplit, hlen⟩ := scanNumber_split h
    exact ⟨hsplit, by simp at hlen; omega⟩
  · simp [Scan.invalid] at h

theorem scanStringToken_split {t raw rest : Text} {l : Lexeme}
    (h : scanStringToken t = .token l raw rest) : raw ++ rest = '"' :: t ∧ 0 < raw.length := by
  simp only [scanStringToken] at h
  split at h <;> simp only [Scan.token.injEq, reduceCtorEq] at h
  next hs =>
    obtain ⟨-, rfl, rfl⟩ := h
    simp [scanString_split hs]

/-- A token takes at least one character, and what it leaves follows what it takes. -/
theorem scanToken_split {c : Char} {t raw rest : Text} {l : Lexeme}
    (h : scanToken c t = .token l raw rest) : raw ++ rest = c :: t ∧ 0 < raw.length := by
  unfold scanToken at h
  split at h
  case h_9 =>
    split at h <;> simp only [Scan.token.injEq] at h <;> obtain ⟨-, rfl, rfl⟩ := h <;> simp
  case h_10 => exact scanHash_split h
  case h_11 => exact scanStringToken_split h
  case h_12 => exact scanCharacter_split h
  case h_13 => exact scanColon_split h
  case h_14 =>
    split at h
    · obtain ⟨hsplit, hlen⟩ := scanNumber_split h
      exact ⟨by simpa using hsplit, by simp at hlen; omega⟩
    · exact scanSymbol_split h
  all_goals
    simp only [Scan.token.injEq] at h
    obtain ⟨-, rfl, rfl⟩ := h
    simp

end Bilisp
