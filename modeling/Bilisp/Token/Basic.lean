import Bilisp.Position
import Bilisp.Number.Basic

/-!
# Tokens

A token is a bracket, a quote marker or an atom, together with the text it was read from and the place of
that text.
-/

namespace Bilisp

/-- What begins a sequence of forms. -/
inductive Opener where
  | paren
  | square
  | brace
  | hashBrace
deriving Repr, DecidableEq

/-- What ends a sequence of forms. -/
inductive Closer where
  | paren
  | square
  | brace
deriving Repr, DecidableEq

/-- A mark in front of a form that wraps it in a list. -/
inductive Marker where
  | quote
  | quasiquote
  | unquote
  | unquoteSplicing
deriving Repr, DecidableEq

/-- The closing bracket that an opening bracket needs. -/
def Opener.closer : Opener → Closer
  | .paren => .paren
  | .square => .square
  | .brace => .brace
  | .hashBrace => .brace

/-- The spelling of an opening bracket. -/
def Opener.text : Opener → Text
  | .paren => "("
  | .square => "["
  | .brace => "\x7b"
  | .hashBrace => "#\x7b"

/-- The spelling of a closing bracket. -/
def Closer.text : Closer → Text
  | .paren => ")"
  | .square => "]"
  | .brace => "\x7d"

/-- The spelling of a quote marker. -/
def Marker.text : Marker → Text
  | .quote => "'"
  | .quasiquote => "\x60"
  | .unquote => "~"
  | .unquoteSplicing => "~@"

/-- The symbol that leads the list around a marked form. -/
def Marker.name : Marker → Text
  | .quote => "quote"
  | .quasiquote => "quasiquote"
  | .unquote => "unquote"
  | .unquoteSplicing => "unquote-splicing"

/-- What a token means. Atoms carry their value, a keyword its name without the colon. -/
inductive Lexeme where
  | opening (opener : Opener)
  | closing (closer : Closer)
  | marker (marker : Marker)
  | symbol (name : Text)
  | keyword (name : Text)
  | string (value : Text)
  | character (value : Char)
  | number (value : Number)
deriving DecidableEq

/-- A lexeme with the text it was read from and the place of that text. -/
structure Token where
  lexeme : Lexeme
  raw : Text
  span : Span
deriving DecidableEq

end Bilisp
