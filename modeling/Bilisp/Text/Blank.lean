import Bilisp.Text.Range

/-!
# Blank characters

The characters that only make space between words: the blank separators of Unicode and the control
characters that move the writing position or separate records.
-/

namespace Bilisp

/-- The code points of blank characters. -/
def blankRanges : List (Nat × Nat) :=
  [(0x9, 0xd), (0x1c, 0x20), (0x85, 0x85), (0xa0, 0xa0), (0x1680, 0x1680), (0x2000, 0x200a),
   (0x2028, 0x2029), (0x202f, 0x202f), (0x205f, 0x205f), (0x3000, 0x3000)]

/-- Whether a character is blank. -/
def isBlank (c : Char) : Bool := inRanges c.toNat blankRanges

end Bilisp
