import Bilisp.Token.Scan

/-!
# Classes of short texts

The classes of characters extend to texts of any length, which includes the empty text that stands for what
is behind the end of a source.
-/

namespace Bilisp.Text

/-- Whether a text is made of blanks and not empty. -/
def isBlank (t : Text) : Bool := !t.isEmpty && t.all Bilisp.isBlank

/-- Whether a text separates tokens: blanks, or one comma. -/
def isSeparator (t : Text) : Bool := t.isBlank || t == ",".toList

/-- Whether a text goes on with an atom: something that neither is blank nor ends atoms. -/
def isAtomPart (t : Text) : Bool :=
  !t.isEmpty && !t.isBlank && !atomEnds.any fun c => t == [c]

/-- Whether a text occurs in the row of hexadecimal digits; the empty text does. -/
def isHexRun (t : Text) : Bool :=
  let digits := "0123456789abcdefABCDEF".toList
  (List.range (digits.length + 1)).any fun start => t.isPrefixOf (digits.drop start)

end Bilisp.Text
