import Bilisp.Literal.Character
import Bilisp.Number.Integer
import Bilisp.Settings.Basic

/-!
# Configuration files

A configuration file is written in TOML. Statements take one line each: a key with a value, or the header of
a table for the keys below it. Values are truth values, integers, one-line strings and inline tables; a
floating point number is accepted without being told apart. A key has one value, a table one header, and a
table that is complete takes no further keys. Every text that breaks a rule is no configuration.
-/

namespace Bilisp.Toml

/-- The parts of a dotted key. -/
abbrev Key := List Text

/-! ## Tables -/

/-- Changes the table under a key. Tables on the way come into being; a value on the way that is no table
stops the change. -/
def update? (change : Config → Option Config) : Key → Config → Option Config
  | [], entries => change entries
  | part :: rest, entries =>
    match Text.assoc? entries part with
    | none => (update? change rest []).map fun inner => entries ++ [(part, .table inner)]
    | some (.table inner) =>
      (update? change rest inner).map fun inner' =>
        entries.map fun entry => if entry.1 = part then (part, .table inner') else entry
    | some _ => none

/-- Adds a value to a table that has none under its key. -/
def insert? (part : Text) (value : ConfigValue) (entries : Config) : Option Config :=
  if (Text.assoc? entries part).isSome then none else some (entries ++ [(part, value)])

/-- Whether a value is a table. -/
def isTable : ConfigValue → Bool
  | .table _ => true
  | _ => false

/-- The key of the table that holds a key, and the last part of the key. -/
def splitLast : Key → Key × Text
  | [] => ([], [])
  | [part] => ([], part)
  | part :: rest =>
    let (front, last) := splitLast rest
    (part :: front, last)

/-- The keys of the tables between a table and a key inside it. -/
def between (header key : Key) : List Key :=
  (List.range (key.length - 1)).map fun n => header ++ key.take (n + 1)

/-- Whether a key is, or lies in, one of the complete tables. -/
def isComplete (complete : List Key) (key : Key) : Bool := complete.any fun k => k.isPrefixOf key

/-! ## Tokens -/

/-- The text behind spaces and tabs. -/
def skipBlank (t : Text) : Text := t.dropWhile fun c => c = ' ' || c = '\t'

/-- Whether a character may stand in a key without quotes. -/
def isBareKeyChar (c : Char) : Bool := isAsciiAlphanumeric c || c = '_' || c = '-'

/-- Whether a character may stand in a comment or a string. -/
def isLineChar (c : Char) : Bool := c = '\t' || (0x20 ≤ c.toNat && c.toNat != 0x7f)

/-- The letters and marks that follow a backslash, with the characters they stand for. -/
def escapes : List (Char × Char) :=
  [('b', '\x08'), ('t', '\t'), ('n', '\n'), ('f', '\x0c'), ('r', '\r'), ('"', '"'), ('\\', '\\')]

/-- The character with the code that hexadecimal digits write. -/
def readCode? (digits : Text) : Option Char :=
  if digits.all isHexDigit then
    (digitsBehind? 16 0 digits).bind fun code =>
      if code.isValidChar then some (Char.ofNat code) else none
  else none

/-- A string with escapes behind its opening quote, and what follows it. -/
def readString? : Text → Option (Text × Text)
  | '"' :: rest => some ([], rest)
  | '\\' :: 'u' :: a :: b :: c :: d :: rest => do
    let code ← readCode? [a, b, c, d]
    let (value, behind) ← readString? rest
    return (code :: value, behind)
  | '\\' :: 'U' :: a :: b :: c :: d :: e :: f :: g :: h :: rest => do
    let code ← readCode? [a, b, c, d, e, f, g, h]
    let (value, behind) ← readString? rest
    return (code :: value, behind)
  | '\\' :: mark :: rest => do
    let (_, c) ← escapes.find? fun entry => entry.1 = mark
    let (value, behind) ← readString? rest
    return (c :: value, behind)
  | c :: rest =>
    if isLineChar c && c != '\\' then do
      let (value, behind) ← readString? rest
      return (c :: value, behind)
    else none
  | [] => none

/-- A string without escapes behind its opening quote, and what follows it. -/
def readLiteralString? (t : Text) : Option (Text × Text) :=
  match t.dropWhile (· != '\'') with
  | _ :: rest =>
    let value := t.takeWhile (· != '\'')
    if value.all isLineChar then some (value, rest) else none
  | [] => none

/-- One part of a key, and what follows it. -/
def readKeyPart? (t : Text) : Option (Text × Text) :=
  match t with
  | '"' :: rest => readString? rest
  | '\'' :: rest => readLiteralString? rest
  | _ =>
    let part := t.takeWhile isBareKeyChar
    if part.isEmpty then none else some (part, t.dropWhile isBareKeyChar)

/-- A key of at most `bound` parts, and what follows it and the blanks behind it. -/
def readKey? : (bound : Nat) → Text → Option (Key × Text)
  | 0, _ => none
  | bound + 1, t => do
    let (part, behind) ← readKeyPart? t
    match skipBlank behind with
    | '.' :: more =>
      let (rest, behind) ← readKey? bound (skipBlank more)
      return (part :: rest, behind)
    | behind => return ([part], behind)

/-! ## Values -/

/-- Whether a text is a decimal integer without a sign: no zero leads it unless it is zero. -/
def isPlainInteger (t : Text) : Bool :=
  t = ['0'] || (t.head? != some '0' && (digitsBehind? 10 0 t).isSome)

/-- The integer that a text writes. -/
def readInteger? (t : Text) : Option Int :=
  match t with
  | '0' :: mark :: digits =>
    let base := if mark = 'x' then 16 else if mark = 'o' then 8 else if mark = 'b' then 2 else 0
    (digitsBehind? base 0 digits).map Int.ofNat
  | _ =>
    let (sign, digits) := takeSign t
    if isPlainInteger digits then (digitsBehind? 10 0 digits).map (signedInt (sign = ['-'])) else none

/-- Whether a text writes a floating point number. -/
def isFloat (t : Text) : Bool :=
  let (_, unsigned) := takeSign t
  let isExponentMark (c : Char) : Bool := c = 'e' || c = 'E'
  let mantissa := unsigned.takeWhile (!isExponentMark ·)
  let exponentFits :=
    match unsigned.dropWhile (!isExponentMark ·) with
    | [] => true
    | _ :: exponent => (digitsBehind? 10 0 (takeSign exponent).2).isSome
  let fractionFits :=
    match mantissa.dropWhile (· != '.') with
    | [] => true
    | _ :: fraction => (digitsBehind? 10 0 fraction).isSome
  unsigned = "inf".toList || unsigned = "nan".toList ||
    (isPlainInteger (mantissa.takeWhile (· != '.')) && fractionFits && exponentFits)

/-- A value without quotes and brackets. -/
def readWord? (t : Text) : Option ConfigValue :=
  if t = "true".toList then some (.boolean true)
  else if t = "false".toList then some (.boolean false)
  else
    match readInteger? t with
    | some n => some (.integer n)
    | none => if isFloat t then some .other else none

/-- Adds an entry to an inline table, of which the complete tables inside are given. -/
def insertInline? (key : Key) (value : ConfigValue) (entries : Config) (complete : List Key) :
    Option Config :=
  let (front, last) := splitLast key
  if isComplete complete key then none else update? (insert? last value) front entries

mutual

/-- A value nested at most `bound` deep, and what follows it. -/
def readValue? : (bound : Nat) → Text → Option (ConfigValue × Text)
  | 0, _ => none
  | bound + 1, t =>
    match t with
    | '"' :: rest => (readString? rest).map fun (value, behind) => (.string value, behind)
    | '\'' :: rest => (readLiteralString? rest).map fun (value, behind) => (.string value, behind)
    | '\x7b' :: rest =>
      match skipBlank rest with
      | '\x7d' :: behind => some (.table [], behind)
      | inner => readEntries? bound [] [] inner
    | _ =>
      let isWordChar (c : Char) : Bool := isBareKeyChar c || c = '+' || c = '.'
      (readWord? (t.takeWhile isWordChar)).map fun value => (value, t.dropWhile isWordChar)

/-- The entries of an inline table behind those already read, up to the closing brace. -/
def readEntries? : (bound : Nat) → Config → List Key → Text → Option (ConfigValue × Text)
  | 0, _, _, _ => none
  | bound + 1, entries, complete, t => do
    let (key, behindKey) ← readKey? t.length t
    let '=' :: behindSign := behindKey | none
    let (value, behind) ← readValue? bound (skipBlank behindSign)
    let entries ← insertInline? key value entries complete
    match skipBlank behind with
    | '\x7d' :: rest => return (.table entries, rest)
    | ',' :: rest =>
      readEntries? bound entries (if isTable value then key :: complete else complete) (skipBlank rest)
    | _ => none

end

/-! ## Statements -/

/-- A configuration while it is read: the entries, the key of the current header, the tables that take no
header any more, those that will take none below the next header, and the complete tables. -/
structure State where
  entries : Config
  header : Key
  declared : List Key
  reserved : List Key
  complete : List Key

/-- Whether nothing but a comment follows a statement. -/
def endsStatement (t : Text) : Bool :=
  match skipBlank t with
  | [] => true
  | '#' :: comment => comment.all isLineChar
  | _ => false

/-- Takes in a header, of which the text behind the bracket is given. -/
def State.readHeader? (s : State) (t : Text) : Option State := do
  let (key, behind) ← readKey? t.length (skipBlank t)
  let declared := s.reserved ++ s.declared
  if declared.contains key || isComplete s.complete key then none
  let entries ← update? some key s.entries
  let ']' :: rest := behind | none
  if endsStatement rest then
    return { s with entries, header := key, declared := key :: declared, reserved := [] }
  else none

/-- Takes in a key with its value. -/
def State.readEntry? (s : State) (t : Text) : Option State := do
  let (key, behindKey) ← readKey? t.length t
  let '=' :: behindSign := behindKey | none
  let (value, behind) ← readValue? (t.length + 1) (skipBlank behindSign)
  let (front, last) := splitLast key
  let inner := between s.header key
  if inner.any s.declared.contains || isComplete s.complete (s.header ++ front) then none
  let entries ← update? (insert? last value) (s.header ++ front) s.entries
  if endsStatement behind then
    let complete := if isTable value then (s.header ++ key) :: s.complete else s.complete
    return { s with entries, complete, reserved := inner ++ s.reserved }
  else none

/-- Takes in one line. -/
def State.readLine? (s : State) (line : Text) : Option State :=
  match skipBlank line with
  | '[' :: rest => s.readHeader? rest
  | statement => if endsStatement statement then some s else s.readEntry? statement

/-- The text without the carriage returns in front of line feeds. -/
def plainLineEnds : Text → Text
  | '\r' :: '\n' :: rest => '\n' :: plainLineEnds rest
  | c :: rest => c :: plainLineEnds rest
  | [] => []

/-- The configuration that a text writes. -/
def read? (t : Text) : Option Config :=
  let lines := (plainLineEnds t).splitOn '\n'
  (lines.foldlM State.readLine? ⟨[], [], [], [], []⟩).map State.entries

end Bilisp.Toml
