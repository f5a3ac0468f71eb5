import Bilisp.Diagnostic.Basic
import Bilisp.Form.Printer
import Bilisp.Node.Display

/-!
# The wording of diagnostics

The headline of a diagnostic names its class, the place and the message. A message shows the form or node at
fault, cut short beyond sixty characters.
-/

namespace Bilisp

/-- A text of at most sixty characters, the end of a longer one replaced by dots. -/
def shortened (t : Text) : Text := if 60 < t.length then t.take 57 ++ "..." else t

/-- What is shown of the program. -/
def Culprit.shown : Culprit → Text
  | .form f => shortened f.text
  | .node n => shortened n.display
  | .text t => shortened t.quoted
  | .absent => "None"

namespace Cause

/-- The class of a rejection. -/
def label : Cause → Text
  | .extraCloser _ => "ExtraError"
  | .mismatchedCloser _ _ => "MismatchedError"
  | .unclosed _ => "UnclosedError"
  | .invalidToken _ _ => "InvalidTokenError"
  | .wrongStructure _ _ _ => "InvalidFormStructureError"
  | .wrongCount _ _ _ _ => "InvalidFormCountError"
  | .passedOn _ _ _ => "WrappedException"
  | .unreadable _ => "ReaderError"
  | .unfitForm _ => "FormError"
  | .general _ => "TranslationError"

/-- The message of a rejection. -/
def message : Cause → Text
  | .extraCloser closer => "extra " ++ closer ++ " found"
  | .mismatchedCloser expected found =>
    "found mismatch, expected " ++ expected ++ ", found " ++ found ++ " instead"
  | .unclosed closer => "missing closing " ++ closer ++ " from form starting here"
  | .invalidToken token reason =>
    let detail : Text := if reason.isEmpty then [] else " (" ++ reason ++ ")"
    "invalid token found: " ++ token ++ detail
  | .wrongStructure kind culprit problem =>
    "in " ++ kind ++ " expression, " ++ problem ++ ": " ++ culprit.shown
  | .wrongCount kind culprit expected found =>
    kind ++ " should have " ++ expected ++ " forms, found " ++ found ++ " instead: " ++ culprit.shown
  | .passedOn failure detail problem => problem ++ ": " ++ failure ++ ": " ++ detail
  | .unreadable message | .unfitForm message | .general message => message

end Cause

namespace Diagnostic

/-- Where the text at fault begins. -/
def position? (d : Diagnostic) : Option Position := d.span.map Span.start

/-- The class, place and message of a diagnostic on one line. -/
def headline (d : Diagnostic) : Text :=
  let place : Text :=
    match d.position? with
    | some p => " at line " ++ intText p.line ++ ":" ++ intText p.column
    | none => []
  d.cause.label ++ place ++ ", " ++ d.cause.message

end Diagnostic

end Bilisp
