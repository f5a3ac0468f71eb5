import Bilisp.Text.Basic

/-!
# Lines

A display breaks lines at every line boundary of Unicode; a reader of files knows only the line feed, the
carriage return and the two together, and sees each of them as one line feed.
-/

namespace Bilisp.Text

/-- Whether a character ends a line of a display. -/
def endsLine (c : Char) : Bool :=
  c = '\n' || c = '\r' || c = '\x0b' || c = '\x0c' || c = '\x1c' || c = '\x1d' || c = '\x1e' ||
    c = '\u0085' || c = '\u2028' || c = '\u2029'

/-- A character put in front of the first line. -/
def consLine (c : Char) : List Text → List Text
  | [] => [[c]]
  | line :: rest => (c :: line) :: rest

/-- The lines of a text, each with the characters that end it. -/
def lines : Text → List Text
  | [] => []
  | '\r' :: '\n' :: rest => ['\r', '\n'] :: lines rest
  | c :: rest => if endsLine c then [c] :: lines rest else consLine c (lines rest)

/-- The text without the characters `c` at its end. -/
def dropEnd (c : Char) (t : Text) : Text := (t.reverse.dropWhile (· == c)).reverse

/-- Every line end of a file becomes a line feed. -/
def unifyLineEnds : Text → Text
  | [] => []
  | '\r' :: '\n' :: rest => '\n' :: unifyLineEnds rest
  | c :: rest => (if c = '\r' then '\n' else c) :: unifyLineEnds rest

end Bilisp.Text
