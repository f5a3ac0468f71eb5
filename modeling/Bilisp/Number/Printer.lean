import Bilisp.Number.Basic

/-!
# Writing numbers

Each kind has its own spelling, so a written number reads back as the same kind: an unsigned integer in
hexadecimal, a ratio always with its denominator, a floating point number with a point or an exponent.
-/

namespace Bilisp.Number

/-- The spelling of a number in a source. -/
def text : Number → Text
  | .int n => intText n
  | .unsigned n => "0x" ++ numeral 16 n
  | .ratio q => intText q.num ++ "/" ++ natText q.den
  | .double .nan => "##NaN"
  | .double (.infinite negative) => if negative then "##-Inf" else "##Inf"
  | .double d => d.text

end Bilisp.Number
