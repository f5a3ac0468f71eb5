import Bilisp.Number.Basic
import Bilisp.Literal.Error

/-!
# Literals

The constants of a host program: nothing, truth values, numbers, strings and characters.
-/

namespace Bilisp

/-- A constant of the host. -/
inductive Literal where
  | nothing
  | boolean (value : Bool)
  | number (value : Number)
  | string (value : Text)
  | character (value : Char)
deriving DecidableEq

namespace Literal

/-- The character literal of a text, which has to be one character. -/
def ofText : Text → Except LiteralError Literal
  | [c] => .ok (.character c)
  | t => .error (.notOneCharacter t)

/-- The unsigned literal of an integer, which must not be negative. -/
def ofUnsigned (n : Int) : Except LiteralError Literal :=
  if n < 0 then .error (.negativeUnsigned n) else .ok (.number (.unsigned n.natAbs))

/-- The literal as a message shows it. -/
def display : Literal → Text
  | .nothing => "None"
  | .boolean value => if value then "True" else "False"
  | .number (.int n) => intText n
  | .number (.unsigned n) => "UInt(value=" ++ natText n ++ ")"
  | .number (.ratio q) => "Fraction(" ++ intText q.num ++ ", " ++ natText q.den ++ ")"
  | .number (.double d) => d.text
  | .string t => t.quoted
  | .character c => "Char(value=" ++ Text.quoted [c] ++ ")"

end Literal

end Bilisp
