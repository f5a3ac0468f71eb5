import Bilisp.Text.Basic

/-!
# Numerals

Whole numbers written with the digits `0` to `9` and `a` to `z`, most significant digit first.
-/

namespace Bilisp

/-- The character of a digit below thirty-six. -/
def digitChar (d : Nat) : Char :=
  if d < 10 then Char.ofNat (d + '0'.toNat) else Char.ofNat (d - 10 + 'a'.toNat)

/-- The digits of `n` after the digits already written behind it, by repeated division. -/
def numeralBefore (base n : Nat) (written : Text) : Text :=
  if h : base ≤ n ∧ 1 < base then
    have : n / base < n := Nat.div_lt_self (by omega) h.2
    numeralBefore base (n / base) (digitChar (n % base) :: written)
  else digitChar n :: written
termination_by n

/-- The numeral of `n` in a base from two to thirty-six. -/
def numeral (base n : Nat) : Text := numeralBefore base n []

/-- A natural number in decimal. -/
def natText (n : Nat) : Text := numeral 10 n

/-- An integer in decimal, a minus sign before a negative one. -/
def intText (n : Int) : Text := if n < 0 then '-' :: natText n.natAbs else natText n.natAbs

/-- A numeral filled up with zeros to a least width. -/
def paddedNumeral (base width n : Nat) : Text :=
  let digits := numeral base n
  List.replicate (width - digits.length) '0' ++ digits

end Bilisp
