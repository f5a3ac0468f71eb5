import Bilisp.Editor
import Bilisp.Proofs.FaultPlaces
import Bilisp.Proofs.Rows

/-!
# What editors mark

A note of the editor marks the text that the diagnostic of the program points at. The span of a diagnostic counts
lines and columns from one, and its ends differ, so the range is the span with every count one less
(`note_marks_fault`).
-/

namespace Bilisp.Editor

/-- Whether a place stands in front of another one. -/
def Place.Before (p q : Place) : Prop := p.line < q.line ∨ (p.line = q.line ∧ p.character < q.character)

/-- Whether a place stands in a row of a document, or behind its last character. -/
structure Place.Inside (document : Text) (p : Place) : Prop where
  line : 0 ≤ p.line
  character : 0 ≤ p.character
  row : ∃ row, document.rows[p.line.toNat]? = some row ∧ p.character ≤ row.length

/-- How many characters a document has in front of a place: the rows above with their line feeds, and the
characters on the left. -/
def Place.offset (document : Text) (p : Place) : Nat :=
  ((document.rows.take p.line.toNat).map fun row => row.length + 1).sum + p.character.toNat

/-- The text of a document between the ends of a range. -/
def Range.text (document : Text) (range : Range) : Text :=
  (document.take (range.stop.offset document)).drop (range.start.offset document)

/-- The place of a position. -/
def placeOf (p : Position) : Place := ⟨p.line - 1, p.column - 1⟩

lemma rangeOf_of_ne {span : Span} (h : span.stop ≠ span.start) :
    rangeOf (some span) = ⟨placeOf span.start, placeOf span.stop⟩ := by
  rw [rangeOf, if_neg h]
  rfl

/-- The place behind the beginning of a document stands in the document, as many characters in it. -/
lemma placeOf_after (before behind : Text) :
    (placeOf (Position.origin.after before)).Inside (before ++ behind) ∧
      (placeOf (Position.origin.after before)).offset (before ++ behind) = before.length := by
  obtain ⟨above, left, hlast⟩ := exists_lastRow before
  obtain ⟨below, hbehind⟩ := exists_rows behind
  have hrows := hlast.rows_append hbehind
  have hplace : placeOf (Position.origin.after before) = ⟨above.length, left.length⟩ := by
    rw [hlast.position, placeOf]
    simp only [add_sub_cancel_right]
  rw [hplace]
  refine ⟨⟨by simp, by simp, ?_⟩, ?_⟩
  · refine ⟨left ++ behind.takeWhile (· != '\n'), ?_, by simp⟩
    rw [Int.toNat_natCast, hrows, List.getElem?_append_right (Nat.le_refl _), Nat.sub_self]
    rfl
  · rw [Place.offset, Int.toNat_natCast, Int.toNat_natCast, hrows, List.take_left, hlast.length_eq]

/-- The place behind some text stands in front of the place behind more text. -/
lemma before_placeOf_after (p : Position) {t : Text} (ht : t ≠ []) : (placeOf p).Before (placeOf (p.after t)) := by
  by_cases hline : '\n' ∈ t
  · have hcount := List.count_pos_iff.2 hline
    refine .inl ?_
    simp only [placeOf, line_after]
    omega
  · have hlength := List.length_pos_iff.2 ht
    rw [after_of_not_mem hline]
    refine .inr ⟨rfl, ?_⟩
    simp only [placeOf]
    omega

/-- A note of the editor is about the diagnostic of the program of its document. Its range goes forward and lies
in the document, and the text between its ends is what the diagnostic points at, which is some text. -/
theorem note_marks_fault {document : Text} {shown : List Note} {note : Note} (h : notes document = .ok shown)
    (hnote : note ∈ shown) :
    ∃ d span, program document = .error (.diagnostic d) ∧ d.span = some span ∧ note = noteOf d ∧
      note.range.start.Before note.range.stop ∧
      note.range.start.Inside document ∧ note.range.stop.Inside document ∧
      note.range.text document = document.slice span.start span.stop ∧
      document.slice span.start span.stop ≠ [] := by
  rw [notes] at h
  split at h
  next nodes hprogram =>
    cases h
    exact absurd hnote List.not_mem_nil
  next d hprogram =>
    cases h
    obtain rfl := List.mem_singleton.1 hnote
    obtain ⟨span, hspan, hmarks⟩ := marks_of_program hprogram
    refine ⟨d, span, hprogram, hspan, rfl, ?_⟩
    have hordered := hmarks.placed.ordered
    have hne : span.stop ≠ span.start := fun heq => by
      rw [heq] at hordered
      exact lt_irrefl _ hordered
    have hrange : (noteOf d).range = ⟨placeOf span.start, placeOf span.stop⟩ := by
      rw [noteOf, hspan, rangeOf_of_ne hne]
    rw [hrange]
    obtain ⟨before, flagged, behind, rfl, hflagged, rfl⟩ := hmarks.placed.exists_split
    obtain ⟨hstartInside, hstart⟩ := placeOf_after before (flagged ++ behind)
    obtain ⟨hstopInside, hstop⟩ := placeOf_after (before ++ flagged) behind
    rw [List.append_assoc] at hstopInside hstop
    have hslice := slice_after before flagged behind
    rw [Position.after_append] at hslice hstopInside hstop
    refine ⟨before_placeOf_after _ hflagged, hstartInside, hstopInside, ?_, ?_⟩
    · rw [Position.span, hslice, Range.text, hstart, hstop, ← List.append_assoc, List.take_left, List.drop_left]
    · rw [Position.span, hslice]
      exact hflagged
  next => cases h

theorem note_marks_fault_sample :
    notes "\n \"a\nb".toList = .ok [noteOf ⟨.unclosed ['"'], some ⟨⟨2, 2, 2⟩, ⟨3, 2, 6⟩⟩⟩] ∧
      ∃ d span, program "\n \"a\nb".toList = .error (.diagnostic d) ∧ d.span = some span ∧
        Range.text "\n \"a\nb".toList ⟨⟨1, 1⟩, ⟨2, 1⟩⟩ = Text.slice "\n \"a\nb".toList span.start span.stop := by
  have hprogram : program "\n \"a\nb".toList =
      .error (.diagnostic ⟨.unclosed ['"'], some ⟨⟨2, 2, 2⟩, ⟨3, 2, 6⟩⟩⟩) := by cbv
  have hnotes : notes "\n \"a\nb".toList = .ok [noteOf ⟨.unclosed ['"'], some ⟨⟨2, 2, 2⟩, ⟨3, 2, 6⟩⟩⟩] := by
    rw [notes, hprogram]
  obtain ⟨d, span, hd, hspan, -, -, -, -, htext, -⟩ := note_marks_fault hnotes List.mem_cons_self
  exact ⟨hnotes, d, span, hd, hspan, htext⟩

end Bilisp.Editor
