import Bilisp.Text.Quoted

/-!
# Faults of literals

What can be wrong with the text or the value of a literal, and how it is said.
-/

namespace Bilisp

/-- Why a text or a value is no literal. -/
inductive LiteralError where
  | unknownConstant (text : Text)
  | malformedNumber (text : Text)
  | zeroDenominator (text : Text)
  | radixOutOfRange (base : Nat)
  | notInBase (base : Nat) (digits : Text)
  | unsupportedCharacter (name : Text)
  | notOneCharacter (text : Text)
  | negativeUnsigned (value : Int)
deriving Repr, DecidableEq

/-- The sentence that tells the fault. Of digits outside their base it shows two hundred characters at most,
the quote in front included. -/
def LiteralError.message : LiteralError → Text
  | .unknownConstant text => "unrecognized numeric constant " ++ text
  | .malformedNumber text => "malformed number " ++ text
  | .zeroDenominator text => "zero denominator in ratio " ++ text
  | .radixOutOfRange base => "radix " ++ natText base ++ " out of range 2-36"
  | .notInBase base digits =>
    "invalid literal for int() with base " ++ natText base ++ ": " ++ digits.quoted.take 200
  | .unsupportedCharacter name => "unsupported character \\" ++ name
  | .notOneCharacter text => "character literal must be one character, got " ++ text.quoted
  | .negativeUnsigned value => "unsigned integer cannot be negative: " ++ intText value

end Bilisp
