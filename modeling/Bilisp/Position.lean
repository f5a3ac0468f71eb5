import Bilisp.Text.Basic

/-!
# Positions in a text

Lines and columns count from one, offsets from zero, and all three count characters. Only a line feed
begins a new line. A span runs from its first position up to, and not including, its last one.
-/

namespace Bilisp

/-- A place between two characters of a text. -/
structure Position where
  line : Int
  column : Int
  offset : Int
deriving Repr, DecidableEq, Inhabited

/-- The part of a text between two positions. -/
structure Span where
  start : Position
  stop : Position
deriving Repr, DecidableEq, Inhabited

namespace Position

/-- The position in front of a text. -/
def origin : Position := ⟨1, 1, 0⟩

/-- The position behind one character. -/
def next (p : Position) (c : Char) : Position :=
  if c = '\n' then ⟨p.line + 1, 1, p.offset + 1⟩ else ⟨p.line, p.column + 1, p.offset + 1⟩

/-- The position behind a text that begins at `p`. -/
def after (p : Position) (t : Text) : Position := t.foldl next p

/-- The span of a text that begins at `p`. -/
def span (p : Position) (t : Text) : Span := ⟨p, p.after t⟩

@[simp] theorem after_nil (p : Position) : p.after [] = p := rfl

@[simp] theorem after_cons (p : Position) (c : Char) (t : Text) :
    p.after (c :: t) = (p.next c).after t := rfl

theorem after_append (p : Position) (s t : Text) : p.after (s ++ t) = (p.after s).after t := by
  simp [after]

end Position

end Bilisp
