import Bilisp.Form.Basic
import Bilisp.Token.Stream

/-!
# Reading forms from tokens

The reader descends into brackets and behind quote markers, and it is one token ahead: a form is complete
only once the token behind it is known to be no fault. A fault ends the reading; forms that were complete
before it stay.
-/

namespace Bilisp

/-- The forms of a text. -/
abbrev Forms := Feed Form Unit

/-- The shape of forms between brackets. Between braces an even number of forms makes a map and an odd number
a set. -/
def Opener.shape (opener : Opener) (count : Nat) : Shape :=
  match opener with
  | .paren => .list
  | .square => .vector
  | .brace => if count % 2 = 0 then .map else .set
  | .hashBrace => .set

/-- The atom that a symbol is read as; three names are constants. -/
def Atom.ofName (name : Text) : Atom :=
  if name = "nil".toList then .nil
  else if name = "true".toList then .boolean true
  else if name = "false".toList then .boolean false
  else .symbol name

/-- A form behind a quote marker. -/
def Marker.wrap (marker : Marker) (span : Span) (f : Form) : Form :=
  let stop := (f.span.getD span).stop
  .compound .list [.atom (.symbol marker.name) (some span), f] (some ⟨span.start, stop⟩)

/-- The fault of a marker that no form follows. -/
def Marker.alone (marker : Marker) (span : Span) : Fault :=
  .located (.wrongCount marker.name (.text marker.text) "1" "0") span

/-- A form that was read and the tokens behind it, of which there are at most `bound`. -/
structure FormReading (bound : Nat) where
  form : Form
  behind : Tokens
  length_le : behind.length ≤ bound

namespace FormReading

/-- The same reading under a larger bound. -/
def widen {bound bound' : Nat} (r : FormReading bound) (h : bound ≤ bound') : FormReading bound' :=
  ⟨r.form, r.behind, Nat.le_trans r.length_le h⟩

/-- The reading of a form that is complete, unless the next token is a fault. -/
def complete (f : Form) : (behind : Tokens) → Except Fault (FormReading behind.length)
  | .failed fault => .error fault
  | .done stop => .ok ⟨f, .done stop, Nat.le_refl _⟩
  | .next token rest => .ok ⟨f, .next token rest, Nat.le_refl _⟩

end FormReading

mutual

/-- Reads the form that a token begins. -/
def readForm (token : Token) (behind : Tokens) : Except Fault (FormReading behind.length) :=
  match token.lexeme with
  | .opening opener => readElements opener token.span [] behind
  | .closing closer => .error (.located (.extraCloser closer.text) token.span)
  | .marker marker => readMarked marker token.span behind
  | .symbol name => FormReading.complete (.atom (.ofName name) (some token.span)) behind
  | .keyword name => FormReading.complete (.atom (.keyword name) (some token.span)) behind
  | .string value => FormReading.complete (.atom (.string value) (some token.span)) behind
  | .character value => FormReading.complete (.atom (.character [value]) (some token.span)) behind
  | .number value => FormReading.complete (.atom (.number value) (some token.span)) behind
termination_by (behind.length, 1)

/-- Reads up to the closing bracket, behind elements that were read already, the last one first. -/
def readElements (opener : Opener) (span : Span) (elements : List Form) (tokens : Tokens) :
    Except Fault (FormReading tokens.length) :=
  match tokens with
  | .done _ => .error (.located (.unclosed opener.closer.text) span)
  | .failed fault => .error fault
  | .next token behind =>
    match token.lexeme with
    | .closing closer => do
      if opener.closer ≠ closer then
        throw (.located (.mismatchedCloser opener.closer.text closer.text) token.span)
      let whole : Form := .compound (opener.shape elements.length) elements.reverse
        (some ⟨span.start, token.span.stop⟩)
      let reading ← FormReading.complete whole behind
      return reading.widen (by simp)
    | _ => do
      let element ← readForm token behind
      have := element.length_le
      let reading ← readElements opener span (element.form :: elements) element.behind
      return reading.widen (by simp; omega)
termination_by (tokens.length, 0)

/-- Reads the form behind a quote marker and wraps it. -/
def readMarked (marker : Marker) (span : Span) (tokens : Tokens) : Except Fault (FormReading tokens.length) :=
  match tokens with
  | .done _ => .error (marker.alone span)
  | .failed fault => .error fault
  | .next token behind =>
    match token.lexeme with
    | .closing _ => .error (marker.alone span)
    | _ => do
      let inner ← readForm token behind
      return ⟨marker.wrap span inner.form, inner.behind, Nat.le_succ_of_le inner.length_le⟩
termination_by (tokens.length, 0)

end

/-- The forms of tokens. -/
def readForms (tokens : Tokens) : Forms :=
  match tokens with
  | .done _ => .done ()
  | .failed fault => .failed fault
  | .next token behind =>
    match readForm token behind with
    | .error fault => .failed fault
    | .ok reading =>
      have := reading.length_le
      .next reading.form (readForms reading.behind)
termination_by tokens.length

end Bilisp
