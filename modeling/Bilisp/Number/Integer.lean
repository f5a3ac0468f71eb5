import Bilisp.Text.Blank
import Bilisp.Text.Digit
import Bilisp.Number.Basic

/-!
# Integers in a given base

Reads an integer as people type it: blanks around it, a sign, the usual mark of the base in front (`0x`, `0o`
or `0b`, where it fits the base), single underscores between digits, and decimal digits of any script.
-/

namespace Bilisp

/-- The value of a digit below the base. -/
def digitBelow? (base : Nat) (c : Char) : Option Nat :=
  (asciiDigitValue? c).filter (· < base)

/-- The value of one or more digits, behind the digits that gave `value`; single underscores may stand
between digits. -/
def digitsBehind? (base value : Nat) : Text → Option Nat
  | [] => none
  | [c] => (digitBelow? base c).map (value * base + ·)
  | c :: '_' :: rest => do digitsBehind? base (value * base + (← digitBelow? base c)) rest
  | c :: rest => do digitsBehind? base (value * base + (← digitBelow? base c)) rest

/-- The letter that marks a base, in lower case. -/
def baseMark? (base : Nat) : Option Char :=
  if base = 16 then some 'x' else if base = 8 then some 'o' else if base = 2 then some 'b' else none

/-- The text behind the mark of the base, with which one underscore goes too. -/
def dropBaseMark (base : Nat) (t : Text) : Text :=
  match t with
  | '0' :: mark :: rest =>
    if some mark.toLower = baseMark? base then
      match rest with
      | '_' :: more => more
      | _ => rest
    else t
  | _ => t

/-- The value of digits of a base, which may follow the mark of the base. -/
def readDigits? (base : Nat) (t : Text) : Option Nat :=
  digitsBehind? base 0 (dropBaseMark base t)

/-- The plain character that a character of an integer stands for: a digit of any script is a digit, a blank
beyond ASCII is a space. -/
def plainIntegerChar (c : Char) : Char :=
  match decimalValue? c with
  | some d => digitChar d
  | none => if 0x80 ≤ c.toNat && isBlank c then ' ' else c

/-- Whether a character may stand around an integer. -/
def surroundsInteger (c : Char) : Bool := c = ' ' || ('\t' ≤ c && c ≤ '\r')

/-- The sign in front of a text, and what follows it. -/
def takeSign : Text → Text × Text
  | '+' :: rest => (['+'], rest)
  | '-' :: rest => (['-'], rest)
  | rest => ([], rest)

/-- The integer that a text writes in a base from two to thirty-six. -/
def readInteger? (base : Nat) (t : Text) : Option Int :=
  let plain := (t.map plainIntegerChar).dropWhile surroundsInteger
  let trimmed := (plain.reverse.dropWhile surroundsInteger).reverse
  let (sign, digits) := takeSign trimmed
  (readDigits? base digits).map (signedInt (sign = ['-']))

end Bilisp
