import Bilisp.Number.Basic
import Bilisp.Position

/-!
# Forms

A form is what a source writes: an atom, or forms between brackets. Forms that were read carry the span of
their text; forms that were made carry none, and the span plays no part in comparisons.
-/

namespace Bilisp

/-- A form without parts. A symbol or keyword holds its name, a keyword without the colon. -/
inductive Atom where
  | symbol (name : Text)
  | keyword (name : Text)
  | string (value : Text)
  | character (value : Text)
  | number (value : Number)
  | nil
  | boolean (value : Bool)
deriving DecidableEq

/-- What the brackets around forms make of them. -/
inductive Shape where
  | list
  | vector
  | map
  | set
deriving Repr, DecidableEq

/-- An atom, or a sequence of forms of some shape. -/
inductive Form where
  | atom (value : Atom) (span : Option Span)
  | compound (shape : Shape) (elements : List Form) (span : Option Span)

namespace Form

/-- Where the form was read. -/
def span : Form → Option Span
  | .atom _ span => span
  | .compound _ _ span => span

/-- A symbol that was not read from a text. -/
def symbol (name : Text) : Form := .atom (.symbol name) none

/-- A list that was not read from a text. -/
def list (elements : List Form) : Form := .compound .list elements none

/-- A vector that was not read from a text. -/
def vector (elements : List Form) : Form := .compound .vector elements none

/-- A list that begins with a symbol. -/
def headed (head : Text) (arguments : List Form) : Form := list (symbol head :: arguments)

/-- The absent value, not read from a text. -/
def nil : Form := .atom .nil none

/-- The name of the symbol that leads a list. -/
def head? : Form → Option Text
  | .compound .list (.atom (.symbol name) _ :: _) _ => some name
  | _ => none

mutual

/-- The form without the places it was read from. -/
def bare : Form → Form
  | .atom value _ => .atom value none
  | .compound shape elements _ => .compound shape (bareAll elements) none

/-- Forms without the places they were read from. -/
def bareAll : List Form → List Form
  | [] => []
  | f :: rest => bare f :: bareAll rest

end

end Form

/-- Atoms are the same when their kinds and values agree, numbers by value. -/
def Atom.same : Atom → Atom → Bool
  | .number a, .number b => a.same b
  | a, b => a == b

mutual

/-- Equality of forms that ignores spans and compares numbers by value. -/
def Form.same : Form → Form → Bool
  | .atom a _, .atom b _ => a.same b
  | .compound shape elements _, .compound shape' elements' _ =>
    shape == shape' && Form.sameAll elements elements'
  | _, _ => false

/-- Equality of lists of forms, element by element. -/
def Form.sameAll : List Form → List Form → Bool
  | [], [] => true
  | f :: rest, g :: rest' => Form.same f g && Form.sameAll rest rest'
  | _, _ => false

end

end Bilisp
