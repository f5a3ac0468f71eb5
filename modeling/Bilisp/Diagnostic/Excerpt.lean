import Bilisp.Diagnostic.Message
import Bilisp.Text.Line

/-!
# Diagnostics with the source line

A diagnostic is shown with the line of the source that it points at and carets under the text at fault: under
all of it when it stays on one line, otherwise up to the end of its first line.
-/

namespace Bilisp.Diagnostic

/-- The line of a source with a number, without its line end; empty if there is no such line. -/
def sourceLine (source : Text) (line : Int) : Text :=
  if line < 1 then [] else (((source.lines[(line - 1).toNat]?).getD []).dropEnd '\n').dropEnd '\r'

/-- How many carets stand under a source line: at least one. -/
def caretCount (span : Span) (shown : Text) : Nat :=
  let width : Int :=
    if span.stop.line = span.start.line then span.stop.column - span.start.column
    else shown.length - span.start.column + 1
  (max 1 width).toNat

/-- The diagnostic as it is shown to people, with the source line if there is a span and a source. -/
def display (d : Diagnostic) (source filename : Text) : Text :=
  let first : Text := "error: " ++ d.headline ++ "\n"
  match d.span with
  | some span =>
    if source.isEmpty then first ++ "  --> " ++ filename
    else
      let shown := sourceLine source span.start.line
      let number := intText span.start.line
      let gutter : Text := List.replicate (number.length + 1) ' '
      first ++ gutter ++ "--> " ++ filename ++ ":" ++ number ++ ":" ++ intText span.start.column ++ "\n" ++
        gutter ++ "|\n" ++ number ++ " | " ++ shown ++ "\n" ++ gutter ++ "| " ++
        List.replicate (span.start.column - 1).toNat ' ' ++ List.replicate (caretCount span shown) '^'
  | none => first ++ "  --> " ++ filename

end Bilisp.Diagnostic
