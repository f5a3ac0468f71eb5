import Bilisp.Diagnostic.Message
import Bilisp.Source

/-!
# Diagnostics for editors

An editor shows the first fault of a document at a range of lines and characters that count from zero. A text
that cannot be read is an error, a form that has no node a warning.
-/

namespace Bilisp.Editor

/-- A place in a document. -/
structure Place where
  line : Int
  character : Int
deriving Repr, DecidableEq

/-- A range of a document. -/
structure Range where
  start : Place
  stop : Place
deriving Repr, DecidableEq

/-- How much a fault weighs. -/
inductive Severity where
  | error
  | warning
deriving Repr, DecidableEq

/-- What an editor shows. -/
structure Note where
  range : Range
  message : Text
  severity : Severity
deriving DecidableEq

/-- The range of a span. A span of no width still has one character marked, and without a span it is the
first of the document. -/
def rangeOf : Option Span → Range
  | none => ⟨⟨0, 0⟩, ⟨0, 1⟩⟩
  | some ⟨start, stop⟩ =>
    let stopCharacter := if stop = start then stop.column else stop.column - 1
    ⟨⟨start.line - 1, start.column - 1⟩, ⟨stop.line - 1, stopCharacter⟩⟩

/-- What an editor shows of a diagnostic. -/
def noteOf (d : Diagnostic) : Note where
  range := rangeOf d.span
  message := d.cause.message
  severity := if d.cause.isReading then .error else .warning

/-- What an editor shows for a document: the diagnostic of its first fault, if there is one. Faults that are
no diagnostics are passed on. -/
def notes (document : Text) : Except Fault (List Note) :=
  match program document with
  | .ok _ => .ok []
  | .error (.diagnostic d) => .ok [noteOf d]
  | .error fault => .error fault

end Bilisp.Editor
