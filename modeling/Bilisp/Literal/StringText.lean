import Bilisp.Text.Numeral

/-!
# Written strings

A string stands in double quotes. Inside, a backslash begins an escape: one letter or mark for the common
characters, or `u` with four hexadecimal digits for a character by its code.
-/

namespace Bilisp

/-- The character that a backslash and a letter or mark stand for. -/
def stringEscape? (c : Char) : Option Char :=
  if c = 'n' then some '\n'
  else if c = 't' then some '\t'
  else if c = 'r' then some '\r'
  else if c = 'b' then some '\x08'
  else if c = 'f' then some '\x0c'
  else if c = '\\' || c = '"' || c = '\'' then some c
  else none

/-- A character as it is written inside a string. -/
def stringCharText (c : Char) : Text :=
  if c = '\n' then "\\n"
  else if c = '\t' then "\\t"
  else if c = '\r' then "\\r"
  else if c = '\x08' then "\\b"
  else if c = '\x0c' then "\\f"
  else if c = '\\' || c = '"' then ['\\', c]
  else if c.toNat < 0x20 || c.toNat = 0x7f then "\\u" ++ paddedNumeral 16 4 c.toNat
  else [c]

/-- The written form of a string. -/
def stringText (value : Text) : Text := '"' :: value.flatMap stringCharText ++ ['"']

end Bilisp
