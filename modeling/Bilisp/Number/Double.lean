import Bilisp.Text.Numeral

/-!
# Binary floating point

Numbers of the binary format with a significand of 53 bits. A finite one is `± mantissa * 2 ^ exponent`, where
the exponent is at least `-1074` and the mantissa has 53 bits unless the exponent is the least one, so equal
numbers of one sign have one representation. Rounding is to the nearest, a half to the even mantissa. A number
is written with the fewest decimal digits that read back as the same number.
-/

namespace Bilisp

/-- A binary floating point number. -/
inductive Double where
  | nan
  | infinite (negative : Bool)
  | finite (negative : Bool) (mantissa : Nat) (exponent : Int)
deriving Repr, DecidableEq, Inhabited

namespace Double

/-- The exponent of the smallest numbers. -/
def leastExponent : Int := -1074

/-- The exponent of the largest finite numbers. -/
def greatestExponent : Int := 971

/-- Zero, with a sign. -/
def zeroOf (negative : Bool) : Double := .finite negative 0 leastExponent

/-- The integer nearest to `num / den`, a half to the even one. -/
def roundHalfEven (num den : Nat) : Nat :=
  let q := num / den
  let r := 2 * (num % den)
  if r < den then q else if r > den then q + 1 else if q % 2 = 0 then q else q + 1

/-- The quotient `num / den` divided by `2 ^ e`, as a pair of natural numbers. -/
def scaled (num den : Nat) (e : Int) : Nat × Nat :=
  if 0 ≤ e then (num, den * Nat.pow 2 e.toNat) else (num * Nat.pow 2 (-e).toNat, den)

/-- The exponent at which the positive quotient `num / den` has a mantissa of 53 bits, or the least one. -/
def exponentOf (num den : Nat) : Int :=
  let e := max ((Nat.log2 num : Int) - Nat.log2 den - 53) leastExponent
  let (n, d) := scaled num den e
  if Nat.pow 2 53 ≤ n / d then e + 1 else e

/-- The number nearest to the quotient `num / den` of natural numbers, `den` not zero. -/
def ofQuotient (negative : Bool) (num den : Nat) : Double :=
  if num = 0 then zeroOf negative
  else
    let e := exponentOf num den
    let (n, d) := scaled num den e
    let m := roundHalfEven n d
    let (m, e) := if m = Nat.pow 2 53 then (Nat.pow 2 52, e + 1) else (m, e)
    if greatestExponent < e then .infinite negative else .finite negative m e

/-- The number nearest to `± digits * 10 ^ scale`. Beyond three hundred and thirty places on either side the
answer is known without computing the power. -/
def ofDecimal (negative : Bool) (digits : Nat) (scale : Int) : Double :=
  let places : Int := (natText digits).length + scale
  if digits = 0 then zeroOf negative
  else if 330 < places then .infinite negative
  else if places < -330 then zeroOf negative
  else if 0 ≤ scale then ofQuotient negative (digits * Nat.pow 10 scale.toNat) 1
  else ofQuotient negative digits (Nat.pow 10 (-scale).toNat)

/-- The value of a finite number as a quotient of natural numbers, without its sign. -/
def quotient (mantissa : Nat) (exponent : Int) : Nat × Nat :=
  if 0 ≤ exponent then (mantissa * Nat.pow 2 exponent.toNat, 1) else (mantissa, Nat.pow 2 (-exponent).toNat)

/-! ## Shortest decimal -/

/-- A decimal `digits * 10 ^ scale`. -/
structure Decimal where
  digits : Nat
  scale : Int
deriving Repr, DecidableEq

/-- The power of ten, at most one too large, of the first digit of a positive quotient. -/
def leadingPlace (num den : Nat) : Int :=
  ((natText num).length : Int) - (natText den).length

/-- The quotient `num / den` divided by `10 ^ s`, as a pair of natural numbers. -/
def shifted (num den : Nat) (s : Int) : Nat × Nat :=
  if 0 ≤ s then (num, den * Nat.pow 10 s.toNat) else (num * Nat.pow 10 (-s).toNat, den)

/-- The decimal on the grid `10 ^ s` that reads back as the number and is nearest to it, if there is one.
Only the two neighbours of the number on the grid can be. -/
def onGrid? (mantissa : Nat) (exponent s : Int) : Option Decimal :=
  let (num, den) := quotient mantissa exponent
  let (n, d) := shifted num den s
  let low := n / d
  let readsBack (k : Nat) : Bool := ofDecimal false k s = .finite false mantissa exponent
  let nearest := roundHalfEven n d
  let other := if nearest = low then low + 1 else low
  if 0 < nearest && readsBack nearest then some ⟨nearest, s⟩
  else if 0 < other && readsBack other then some ⟨other, s⟩
  else none

/-- The decimal that is equal to the number. -/
def exactDecimal (mantissa : Nat) (exponent : Int) : Decimal :=
  if 0 ≤ exponent then ⟨mantissa * Nat.pow 2 exponent.toNat, 0⟩
  else ⟨mantissa * Nat.pow 5 (-exponent).toNat, exponent⟩

/-- The first grid that holds a decimal for the number, from coarse to fine; `count` grids are tried before
the number itself is taken. -/
def firstOnGrid (mantissa : Nat) (exponent : Int) : Nat → Int → Decimal
  | 0, _ => exactDecimal mantissa exponent
  | count + 1, s => (onGrid? mantissa exponent s).getD (firstOnGrid mantissa exponent count (s - 1))

/-- The decimal with the fewest digits that reads back as a positive finite number, and of those the
nearest. Nineteen grids from one above the first digit always hold one. -/
def shortest (mantissa : Nat) (exponent : Int) : Decimal :=
  let (num, den) := quotient mantissa exponent
  firstOnGrid mantissa exponent 19 (leadingPlace num den)

/-- Digits without the zeros at their end, and the number of digits before the point. -/
def Decimal.significant (d : Decimal) : Text × Int :=
  let digits := natText d.digits
  ((digits.reverse.dropWhile (· == '0')).reverse, (digits.length : Int) + d.scale)

/-- Positional up to sixteen digits before the point and four zeros behind it, `.0` after a whole number. -/
def positional (digits : Text) (before : Int) : Text :=
  if before ≤ 0 then "0." ++ List.replicate (-before).toNat '0' ++ digits
  else
    let n := before.toNat
    if digits.length ≤ n then digits ++ List.replicate (n - digits.length) '0' ++ ".0"
    else digits.take n ++ "." ++ digits.drop n

/-- One digit before the point, then a signed exponent of at least two digits. -/
def scientific (digits : Text) (before : Int) : Text :=
  let e := before - 1
  let point : Text := if digits.length ≤ 1 then [] else ['.']
  digits.take 1 ++ point ++ digits.drop 1 ++ "e" ++ (if e < 0 then "-" else "+") ++
    paddedNumeral 10 2 e.natAbs

/-- The text of a finite number without its sign. -/
def magnitudeText (mantissa : Nat) (exponent : Int) : Text :=
  if mantissa = 0 then "0.0"
  else
    let (digits, before) := (shortest mantissa exponent).significant
    if -4 < before && before ≤ 16 then positional digits before else scientific digits before

/-- The text of a number. -/
def text : Double → Text
  | .nan => "nan"
  | .infinite negative => if negative then "-inf" else "inf"
  | .finite negative mantissa exponent =>
    if negative then '-' :: magnitudeText mantissa exponent else magnitudeText mantissa exponent

end Double

end Bilisp
