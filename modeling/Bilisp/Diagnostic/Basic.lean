import Bilisp.Form.Basic
import Bilisp.Node.Basic

/-!
# Diagnostics

A diagnostic tells why a text cannot be read, or why a form or a node has no counterpart, and where. Two
further faults are no diagnostics: a text that ends inside the digits of a character escape, and a literal
value that does not exist.
-/

namespace Bilisp

/-- What a message can show of the program: a form, a node, a piece of text, or nothing. -/
inductive Culprit where
  | form (f : Form)
  | node (n : Node)
  | text (t : Text)
  | absent

/-- Why a source or a program is rejected. The last four carry a message of their own: a failure from below
that is passed on, and rejections without further detail. -/
inductive Cause where
  | extraCloser (closer : Text)
  | mismatchedCloser (expected found : Text)
  | unclosed (closer : Text)
  | invalidToken (token reason : Text)
  | wrongStructure (kind : Text) (culprit : Culprit) (problem : Text)
  | wrongCount (kind : Text) (culprit : Culprit) (expected found : Text)
  | passedOn (failure detail problem : Text)
  | unreadable (message : Text)
  | unfitForm (message : Text)
  | general (message : Text)

namespace Cause

/-- Whether the text itself is at fault, before any form is converted. -/
def isReading : Cause → Bool
  | .extraCloser _ | .mismatchedCloser _ _ | .unclosed _ | .invalidToken _ _ | .unreadable _ => true
  | _ => false

/-- Whether a form or a node is at fault. -/
def isForming : Cause → Bool
  | .wrongStructure _ _ _ | .wrongCount _ _ _ _ | .passedOn _ _ _ | .unfitForm _ => true
  | _ => false

end Cause

/-- A cause and the span of the text at fault, if it is known. -/
structure Diagnostic where
  cause : Cause
  span : Option Span

/-- Why an operation has no result. -/
inductive Fault where
  | diagnostic (d : Diagnostic)
  | pastEnd
  | literal (e : LiteralError)

namespace Fault

/-- A rejection of the text in a span. -/
def located (cause : Cause) (span : Span) : Fault := .diagnostic ⟨cause, some span⟩

/-- A form of the wrong structure, which the diagnostic points at. -/
def structureOf (kind : Text) (f : Form) (problem : Text) : Fault :=
  .diagnostic ⟨.wrongStructure kind (.form f) problem, f.span⟩

/-- A form with the wrong number of parts, which the diagnostic points at. -/
def countOf (kind : Text) (f : Form) (expected : Text) (found : Nat) : Fault :=
  .diagnostic ⟨.wrongCount kind (.form f) expected (natText found), f.span⟩

/-- A node of the wrong structure; nodes have no place in a text. -/
def nodeStructure (kind : Text) (n : Node) (problem : Text) : Fault :=
  .diagnostic ⟨.wrongStructure kind (.node n) problem, none⟩

/-- A node with the wrong number of parts. -/
def nodeCount (kind : Text) (n : Node) (expected : Text) (found : Nat) : Fault :=
  .diagnostic ⟨.wrongCount kind (.node n) expected (natText found), none⟩

end Fault

end Bilisp
