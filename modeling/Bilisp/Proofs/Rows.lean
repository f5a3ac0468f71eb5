import Bilisp.Proofs.Tiling
import Mathlib.Algebra.Ring.Nat

/-!
# Rows of a text

The rows of a text are the parts between its line feeds. The position behind a text counts the rows above its last
one and the characters of the last one, and what follows the text goes on with that row (`exists_lastRow`).
-/

namespace Bilisp

/-- The parts of a text between its line feeds. -/
def Text.rows (t : Text) : List Text := t.splitOn '\n'

lemma rows_cons (c : Char) (t : Text) :
    Text.rows (c :: t) = if c = '\n' then [] :: t.rows else t.rows.modifyHead (c :: ·) := by
  simp only [Text.rows, List.splitOn_cons_eq_if_modifyHead, beq_iff_eq]

/-- The first row goes up to the first line feed. -/
lemma exists_rows (t : Text) : ∃ rest, t.rows = t.takeWhile (· != '\n') :: rest := by
  induction t with
  | nil => exact ⟨[], rfl⟩
  | cons c t ih =>
    obtain ⟨rest, hrest⟩ := ih
    rw [rows_cons]
    split
    next hc => exact ⟨Text.rows t, by simp [hc]⟩
    next hc => exact ⟨rest, by simp [hc, hrest]⟩

/-- The last row of a text, with the rows above it: the text that follows goes on with the last row, and the
position behind the text counts the rows above and the characters of the last row. -/
structure LastRow (t : Text) (above : List Text) (left : Text) : Prop where
  eq_flatMap : t = above.flatMap (· ++ ['\n']) ++ left
  position : Position.origin.after t = ⟨above.length + 1, left.length + 1, t.length⟩
  rows_append {behind right : Text} {below : List Text} (h : behind.rows = right :: below) :
    Text.rows (t ++ behind) = above ++ (left ++ right) :: below

lemma exists_lastRow (t : Text) : ∃ above left, LastRow t above left := by
  induction t using List.reverseRecOn with
  | nil => exact ⟨[], [], rfl, rfl, fun h => h⟩
  | append_singleton t c ih =>
    obtain ⟨above, left, hlast⟩ := ih
    have hnext : Position.origin.after (t ++ [c]) = (Position.origin.after t).next c := Position.after_append _ _ _
    by_cases hc : c = '\n'
    · refine ⟨above ++ [left], [], ?_, ?_, fun {behind right below} hrows => ?_⟩
      · conv_lhs => rw [hlast.eq_flatMap, hc]
        simp
      · rw [hnext, hlast.position, Position.next, if_pos hc]
        simp
      · have hbehind : Text.rows (c :: behind) = [] :: behind.rows := by rw [rows_cons, if_pos hc]
        rw [List.append_assoc, List.singleton_append, hlast.rows_append hbehind, hrows]
        simp
    · refine ⟨above, left ++ [c], ?_, ?_, fun {behind right below} hrows => ?_⟩
      · conv_lhs => rw [hlast.eq_flatMap]
        simp
      · rw [hnext, hlast.position, Position.next, if_neg hc]
        simp
      · have hbehind : Text.rows (c :: behind) = (c :: right) :: below := by
          rw [rows_cons, if_neg hc, hrows]
          rfl
        rw [List.append_assoc, List.singleton_append, hlast.rows_append hbehind]
        simp

namespace LastRow

variable {t left : Text} {above : List Text} (h : LastRow t above left)

include h

lemma length_eq : (above.map fun row => row.length + 1).sum + left.length = t.length := by
  rw [h.eq_flatMap, List.length_append, List.length_flatMap]
  simp only [List.length_append, List.length_cons, List.length_nil]

/-- A text without line feeds stays in the row. -/
lemma rows_append_of_not_mem {behind : Text} (hbehind : '\n' ∉ behind) :
    Text.rows (t ++ behind) = above ++ [left ++ behind] := h.rows_append (List.splitOn_eq_singleton hbehind)

lemma rows_eq : t.rows = above ++ [left] := by
  have hrows := h.rows_append_of_not_mem List.not_mem_nil
  rwa [List.append_nil, List.append_nil] at hrows

end LastRow

/-! ## Positions behind a text -/

lemma line_after (p : Position) (t : Text) : (p.after t).line = p.line + t.count '\n' := by
  induction t generalizing p with
  | nil => simp
  | cons c t ih =>
    rw [Position.after_cons, ih, Position.next]
    by_cases hc : c = '\n'
    · simp [hc]
      omega
    · simp [hc]

/-- A text without line feeds stays on its line. -/
lemma after_of_not_mem {t : Text} (h : '\n' ∉ t) (p : Position) :
    p.after t = ⟨p.line, p.column + t.length, p.offset + t.length⟩ := by
  induction t generalizing p with
  | nil => simp
  | cons c t ih =>
    obtain ⟨hc, ht⟩ := not_or.1 (List.mem_cons.not.1 h)
    rw [Position.after_cons, ih ht, Position.next, if_neg (Ne.symm hc), List.length_cons]
    simp only [Position.mk.injEq, true_and]
    omega

/-- A text stays on its line if and only if it has no line feed. -/
lemma line_after_eq_iff (p : Position) (t : Text) : (p.after t).line = p.line ↔ '\n' ∉ t := by
  rw [line_after, ← List.count_eq_zero]
  omega

/-! ## Spans -/

lemma place_eq_after {source : Text} {offset : Nat} (h : offset ≤ source.length) :
    source.place offset = Position.origin.after (source.take offset) := by
  have hplace := after_origin_eq_place (source.take offset) (source.drop offset)
  rw [List.take_append_drop, List.length_take, Nat.min_eq_left h] at hplace
  exact hplace.symm

/-- A span of a source cuts it into the text in front, the text that it covers, and the text behind. -/
lemma Span.Placed.exists_split {source : Text} {span : Span} (h : span.Placed source) :
    ∃ before flagged behind, source = before ++ (flagged ++ behind) ∧ flagged ≠ [] ∧
      span = (Position.origin.after before).span flagged := by
  obtain ⟨first, hfirst⟩ : ∃ first, span.start.offset.toNat = first := ⟨_, rfl⟩
  obtain ⟨last, hlast⟩ : ∃ last, span.stop.offset.toNat = last := ⟨_, rfl⟩
  have hstart : span.start = source.place first := hfirst ▸ h.start
  have hstop : span.stop = source.place last := hlast ▸ h.stop
  have hordered := h.ordered
  have hinside := h.inside
  rw [hstart, hstop, Text.place, Text.place] at hordered
  rw [hstop, Text.place] at hinside
  dsimp only at hordered hinside
  have hfront : (source.take last).take first = source.take first := by
    rw [List.take_take, Nat.min_eq_left (by omega)]
  have htext := List.take_append_drop first (source.take last)
  rw [hfront] at htext
  refine ⟨source.take first, (source.take last).drop first, source.drop last, ?_, ?_, ?_⟩
  · rw [← List.append_assoc, htext, List.take_append_drop]
  · rw [← List.length_pos_iff, List.length_drop, List.length_take]
    omega
  · rw [Position.span, ← Position.after_append, htext, ← place_eq_after (by omega), ← place_eq_after (by omega),
      ← hstart, ← hstop]

end Bilisp
