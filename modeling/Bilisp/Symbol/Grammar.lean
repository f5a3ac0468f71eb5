import Bilisp.Text.Basic
import Bilisp.Text.Blank
import Bilisp.Text.Digit

/-!
# The spelling of symbols and keywords

A symbol is either made of operator characters only, or it is a path: segments joined by `.`, `/` or `::`,
with at most one `::` in front. A keyword is an operator or a path without `::`.
-/

namespace Bilisp

/-- The characters of operators. -/
def operatorChars : List Char := "+-*/\\<>=!&|%^~÷.:$≤≥≠".toList

/-- Whether a name is made of operator characters only. -/
def isOperator (t : Text) : Bool := !t.isEmpty && t.all operatorChars.contains

/-- The characters, blanks aside, that end a segment. -/
def segmentEnds : List Char := ":./\\()[]\x7b\x7d\";`~,".toList

/-- Whether a character may stand in a segment. -/
def isSegmentChar (c : Char) : Bool := !isBlank c && !segmentEnds.contains c

/-- Whether a character may begin a segment: a digit, `#` or a quote would be read as something else. -/
def isSegmentStart (c : Char) : Bool :=
  isSegmentChar c && !isDecimal c && c != '#' && c != '\''

/-- Whether a text is one segment. -/
def isSegment : Text → Bool
  | [] => false
  | c :: rest => isSegmentStart c && rest.all isSegmentChar

/-- Whether a text goes on as a path, at the start of a segment or inside one. Only in a typed path may
`::` join segments. -/
def continuesPath (typed : Bool) : (atStart : Bool) → Text → Bool
  | atStart, [] => !atStart
  | true, c :: rest => isSegmentStart c && continuesPath typed false rest
  | false, ':' :: ':' :: rest => typed && continuesPath typed true rest
  | false, c :: rest =>
    if c = '.' || c = '/' then continuesPath typed true rest
    else isSegmentChar c && continuesPath typed false rest

/-- Whether a text is a path of segments, of which the first may follow `::`. -/
def isPath (t : Text) : Bool :=
  match t with
  | ':' :: ':' :: rest => continuesPath true true rest
  | _ => continuesPath true true t

/-- Whether a text is the spelling of a symbol. -/
def isSymbolText (t : Text) : Bool := isOperator t || isPath t

/-- Whether a text is the name of a keyword, which a colon precedes. -/
def isKeywordName (t : Text) : Bool := continuesPath false true t || isOperator t

/-! ## Parts of a path -/

/-- The parts of a text between the occurrences of `::`, taken from the left. -/
def splitAscription : Text → List Text
  | [] => [[]]
  | ':' :: ':' :: rest => [] :: splitAscription rest
  | c :: rest =>
    match splitAscription rest with
    | [] => [[c]]
    | part :: parts => (c :: part) :: parts

/-- The parts of a text between points and slashes. -/
def splitPath : Text → List Text
  | [] => [[]]
  | c :: rest =>
    if c = '.' || c = '/' then [] :: splitPath rest
    else
      match splitPath rest with
      | [] => [[c]]
      | part :: parts => (c :: part) :: parts

/-- Whether `::` occurs in a text. -/
def hasAscription : Text → Bool
  | ':' :: ':' :: _ => true
  | _ :: rest => hasAscription rest
  | [] => false

end Bilisp
