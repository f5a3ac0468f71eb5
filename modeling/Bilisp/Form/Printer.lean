import Bilisp.Form.Basic
import Bilisp.Literal.Character
import Bilisp.Literal.StringText
import Bilisp.Number.Printer

/-!
# Writing forms

A form is written on one line, its elements separated by single spaces. A text of several forms gives each of
them a line of its own.
-/

namespace Bilisp

/-- The written form of an atom. -/
def Atom.text : Atom → Text
  | .symbol name => name
  | .keyword name => ':' :: name
  | .string value => stringText value
  | .character value => characterText value
  | .number value => value.text
  | .nil => "nil"
  | .boolean value => if value then "true" else "false"

/-- The brackets that a shape is written with. -/
def Shape.brackets : Shape → Text × Text
  | .list => ("(", ")")
  | .vector => ("[", "]")
  | .map => ("\x7b", "\x7d")
  | .set => ("#\x7b", "\x7d")

mutual

/-- The written form of a form. -/
def Form.text : Form → Text
  | .atom value _ => value.text
  | .compound shape elements _ =>
    shape.brackets.1 ++ Text.join " " (Form.texts elements) ++ shape.brackets.2

/-- The written forms of several forms. -/
def Form.texts : List Form → List Text
  | [] => []
  | f :: rest => Form.text f :: Form.texts rest

end

/-- Forms on lines of their own, with blank lines between them; with one blank line less than none they
follow each other directly. -/
def Form.layout (forms : List Form) (blankLines : Int) : Text :=
  Text.join (List.replicate (blankLines + 1).toNat '\n') (Form.texts forms)

end Bilisp
