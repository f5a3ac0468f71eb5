import Bilisp.Literal.Error
import Bilisp.Number.Integer

/-!
# Characters by name

A character literal is a backslash with the character behind it. Six characters that are hard to see have
names, and `u` with four digits gives a character by its code.
-/

namespace Bilisp

/-- The named characters. -/
def characterNames : List (Text × Char) :=
  [("newline", '\n'), ("space", ' '), ("tab", '\t'), ("formfeed", '\x0c'), ("backspace", '\x08'),
   ("return", '\r')]

/-- The character with a code; a code that no character has stands for the replacement character. -/
def characterOfCode (code : Nat) : Char :=
  if code.isValidChar then Char.ofNat code else '\ufffd'

/-- The character with the code that a text writes in hexadecimal. -/
def characterOfNumeral? (t : Text) : Option Char :=
  match readInteger? 16 t with
  | some (.ofNat code) => some (characterOfCode code)
  | _ => none

/-- The character that the text behind the backslash names. -/
def readCharacterName (name : Text) : Except LiteralError Char :=
  match name with
  | [c] => .ok c
  | _ =>
    match Text.assoc? characterNames name with
    | some c => .ok c
    | none =>
      match name with
      | ['u', a, b, c, d] =>
        match characterOfNumeral? [a, b, c, d] with
        | some character => .ok character
        | none => .error (.unsupportedCharacter name)
      | _ => .error (.unsupportedCharacter name)

/-- The written form of a character literal, of which the value may be any text. -/
def characterText (value : Text) : Text :=
  match characterNames.find? fun entry => [entry.2] == value with
  | some (name, _) => '\\' :: name
  | none => '\\' :: value

end Bilisp
