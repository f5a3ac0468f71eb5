import Bilisp.Number.Double

/-!
# Numbers

A number is an integer, an unsigned integer, a ratio or a binary floating point number. The kinds stay apart
when numbers are stored and printed; `Number.same` compares across kinds by exact value.
-/

namespace Bilisp

/-- A number of one of the four kinds that a source can write. -/
inductive Number where
  | int (value : Int)
  | unsigned (value : Nat)
  | ratio (value : Rat)
  | double (value : Double)
deriving DecidableEq

/-- A natural number with a sign. -/
def signedInt (negative : Bool) (magnitude : Nat) : Int :=
  if negative then -(magnitude : Int) else magnitude

namespace Number

/-- The exact value, where the number is an integer, a ratio or a finite floating point number. -/
def value? : Number → Option Rat
  | .int n => some n
  | .ratio q => some q
  | .double (.finite negative mantissa exponent) =>
    let (num, den) := Double.quotient mantissa exponent
    some (mkRat (signedInt negative num) den)
  | _ => none

/-- Equality by value: an unsigned integer equals no number of another kind, the others are compared
exactly. -/
def same (a b : Number) : Bool :=
  match a.value?, b.value? with
  | some p, some q => p == q
  | none, none => a == b
  | _, _ => false

end Number

end Bilisp
