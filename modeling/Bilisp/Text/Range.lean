/-!
# Ranges of code points

A class of characters is a list of inclusive ranges of code points in ascending order, so a search can stop
at the first range that starts beyond the code point in question.
-/

namespace Bilisp

/-- The first code point of the range that holds `n`. -/
def rangeStart? (n : Nat) : List (Nat × Nat) → Option Nat
  | [] => none
  | (first, last) :: rest =>
    if n < first then none else if n ≤ last then some first else rangeStart? n rest

/-- Whether one of the ranges holds `n`. -/
def inRanges (n : Nat) (ranges : List (Nat × Nat)) : Bool :=
  (rangeStart? n ranges).isSome

end Bilisp
