import Bilisp.Text.Printable
import Bilisp.Text.Numeral

/-!
# Quoted text

A text shown inside a message stands in single quotes, or in double quotes when it holds a single quote and
no double quote. A backslash, the quote in use and characters that cannot be shown are written as escapes.
-/

namespace Bilisp.Text

/-- The mark that encloses a quoted text. -/
def quoteMark (t : Text) : Char := if t.contains '\'' && !t.contains '"' then '"' else '\''

/-- A character inside a text quoted with `mark`. -/
def quotedChar (mark c : Char) : Text :=
  if c = '\\' || c = mark then ['\\', c]
  else if c = '\n' then "\\n"
  else if c = '\r' then "\\r"
  else if c = '\t' then "\\t"
  else if isPrintable c then [c]
  else if c.toNat < 0x100 then "\\x" ++ paddedNumeral 16 2 c.toNat
  else if c.toNat < 0x10000 then "\\u" ++ paddedNumeral 16 4 c.toNat
  else "\\U" ++ paddedNumeral 16 8 c.toNat

/-- A text in quotes, with escapes for what cannot be shown. -/
def quoted (t : Text) : Text :=
  let mark := t.quoteMark
  mark :: t.flatMap (quotedChar mark) ++ [mark]

end Bilisp.Text
