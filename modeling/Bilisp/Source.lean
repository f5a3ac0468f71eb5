import Bilisp.Form.OfNode
import Bilisp.Form.Reader
import Bilisp.Node.OfForm
import Bilisp.Token.Stream

/-!
# Whole sources

A source is read form by form, and each form is converted before the forms behind it are looked at. The
canonical text of a source gives every node of its program a line of its own.
-/

namespace Bilisp

/-- The forms of a source. -/
def forms (source : Text) : Forms := readForms (tokens source)

/-- The host program of a source, one node for each form. -/
def program (source : Text) : Except Fault (List Node) := (forms source).collect (Form.toNode true)

/-- The source text of a host program. -/
def programText (topLevel : Bool) (blankLines : Int) (nodes : List Node) : Except Fault Text :=
  return Form.layout (← nodes.mapM (Node.toForm topLevel)) blankLines

/-- The canonical text of a source: its program, written out. -/
def canonicalText (topLevel : Bool) (blankLines : Int) (source : Text) : Except Fault Text := do
  programText topLevel blankLines (← program source)

/-- The canonical text of a source, the canonical text of that, and so on, up to the first fault. -/
def rounds (blankLines : Int) (source : Text) : List Bool → List (Except Fault Text)
  | [] => []
  | topLevel :: rest =>
    match canonicalText topLevel blankLines source with
    | .ok text => .ok text :: rounds blankLines text rest
    | .error fault => [.error fault]

end Bilisp
