import Bilisp.Literal.Error
import Bilisp.Number.Integer

/-!
# Reading numbers

The written numbers of a source: integers (`12`, `-3N`), unsigned integers (`0xff`), ratios (`1/2`), decimal
fractions (`1.5e3`), integers with a radix (`2r101`) and the named constants `##Inf`, `##-Inf` and `##NaN`.
What stands behind the first run of digits decides the kind.
-/

namespace Bilisp

/-- The value of decimal digits of any script. -/
def decimalNumber (digits : Text) : Nat :=
  digits.foldl (fun value c => value * 10 + (decimalValue? c).getD 0) 0

/-- The constants that are written with a name behind `##`. -/
def numericConstants : List (Text × Double) :=
  [("Inf", .infinite false), ("-Inf", .infinite true), ("NaN", .nan)]

/-- Whether a text is one or more decimal digits. -/
def isDecimalRun (t : Text) : Bool := !t.isEmpty && t.all isDecimal

/-- A signed decimal exponent. -/
def readExponent? (t : Text) : Option Int :=
  let (sign, digits) := takeSign t
  if isDecimalRun digits then some (signedInt (sign = ['-']) (decimalNumber digits)) else none

/-- What may follow the digits of a decimal fraction: nothing, or an exponent. -/
def readFractionEnd? : Text → Option Int
  | [] => some 0
  | c :: rest => if c = 'e' || c = 'E' then readExponent? rest else none

/-- The number with the given digits around the point. -/
def decimalDouble (negative : Bool) (whole fraction : Text) (exponent : Int) : Number :=
  .double (.ofDecimal negative (decimalNumber (whole ++ fraction)) (exponent - fraction.length))

/-- The number that a text writes of which the sign, the first run of digits and what stands behind it are
given. -/
def numberBehind (t sign digits : Text) : Text → Except LiteralError Number
  | [] => .ok (.int (signedInt (sign = ['-']) (decimalNumber digits)))
  | ['N'] => .ok (.int (signedInt (sign = ['-']) (decimalNumber digits)))
  | '.' :: rest =>
    match readFractionEnd? (rest.dropWhile isDecimal) with
    | some exponent => .ok (decimalDouble (sign = ['-']) digits (rest.takeWhile isDecimal) exponent)
    | none => .error (.malformedNumber t)
  | '/' :: denominator =>
    if !isDecimalRun denominator then .error (.malformedNumber t)
    else if decimalNumber denominator = 0 then .error (.zeroDenominator t)
    else .ok (.ratio (mkRat (signedInt (sign = ['-']) (decimalNumber digits)) (decimalNumber denominator)))
  | 'r' :: rest =>
    let base := decimalNumber digits
    if 2 < digits.length || rest.isEmpty || !rest.all isAsciiAlphanumeric then
      .error (.malformedNumber t)
    else if base < 2 || 36 < base then .error (.radixOutOfRange base)
    else
      match readDigits? base rest with
      | some value => .ok (.int (signedInt (sign = ['-']) value))
      | none => .error (.notInBase base rest)
  | mark :: rest =>
    if mark = 'e' || mark = 'E' then
      match readExponent? rest with
      | some exponent => .ok (decimalDouble (sign = ['-']) digits [] exponent)
      | none => .error (.malformedNumber t)
    else if (mark = 'x' || mark = 'X') && sign.isEmpty && digits = ['0'] && !rest.isEmpty &&
        rest.all isHexDigit then
      .ok (.unsigned (rest.foldl (fun value c => value * 16 + (asciiDigitValue? c).getD 0) 0))
    else .error (.malformedNumber t)

/-- The number that a text writes. -/
def readNumber (t : Text) : Except LiteralError Number :=
  match t with
  | '#' :: '#' :: name =>
    match Text.assoc? numericConstants name with
    | some constant => .ok (.double constant)
    | none => .error (.unknownConstant t)
  | _ =>
    let (sign, unsigned) := takeSign t
    let digits := unsigned.takeWhile isDecimal
    if digits.isEmpty then .error (.malformedNumber t)
    else numberBehind t sign digits (unsigned.dropWhile isDecimal)

end Bilisp
