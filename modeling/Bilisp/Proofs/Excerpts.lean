import Bilisp.Diagnostic.Excerpt
import Bilisp.Proofs.FaultPlaces
import Bilisp.Proofs.Numerals
import Bilisp.Proofs.Rows

/-!
# What carets mark

A diagnostic is displayed with a line of the source and carets under the text at fault. The scanner counts lines by
line feeds, and the display breaks the source at every line boundary of Unicode. Where the two agree up to the text
at fault, the carets stand under that text (`carets_mark_fault`); where they do not, the display shows another line.
-/

namespace Bilisp

/-! ## Lines of a display -/

/-- Whether a display does not break a row, unless at a carriage return at its end. -/
def Text.IsPlainRow (row : Text) : Prop :=
  ∃ body, (row = body ∨ row = body ++ ['\r']) ∧ ∀ c ∈ body, endsLine c = false

/-- Whether a display breaks a text at its line feeds and nowhere else. -/
def Text.BreaksAtFeeds (t : Text) : Prop :=
  ∃ above left, t.rows = above ++ [left] ∧ (∀ row ∈ above, row.IsPlainRow) ∧ ∀ c ∈ left, endsLine c = false

lemma lines_cons {c : Char} (h : Text.endsLine c = false) (t : Text) :
    Text.lines (c :: t) = Text.consLine c t.lines := by
  conv_lhs => unfold Text.lines
  split
  next heq => cases heq
  next heq =>
    cases heq
    cases h
  next heq =>
    cases heq
    exact if_neg (ne_true_of_eq_false h)

/-- Characters that end no line go in front of the first line. -/
lemma lines_append {body t first : Text} {later : List Text} (h : ∀ c ∈ body, Text.endsLine c = false)
    (ht : t.lines = first :: later) : Text.lines (body ++ t) = (body ++ first) :: later := by
  induction body with
  | nil => exact ht
  | cons c body ih =>
    obtain ⟨hc, hbody⟩ := List.forall_mem_cons.1 h
    rw [List.cons_append, lines_cons hc, ih hbody]
    rfl

lemma lines_plainRow {row : Text} (h : row.IsPlainRow) (t : Text) :
    Text.lines (row ++ '\n' :: t) = (row ++ ['\n']) :: t.lines := by
  obtain ⟨body, rfl | rfl, hbody⟩ := h
  · exact lines_append hbody rfl
  · rw [List.append_assoc, List.append_assoc]
    exact lines_append hbody rfl

lemma lines_plainRows {above : List Text} (h : ∀ row ∈ above, row.IsPlainRow) (t : Text) :
    Text.lines (above.flatMap (· ++ ['\n']) ++ t) = above.map (· ++ ['\n']) ++ t.lines := by
  induction above with
  | nil => rfl
  | cons row above ih =>
    obtain ⟨hrow, habove⟩ := List.forall_mem_cons.1 h
    rw [List.flatMap_cons, List.append_assoc, List.append_assoc, List.singleton_append, lines_plainRow hrow,
      ih habove]
    rfl

/-- Characters that end no line are the beginning of the first line. -/
lemma exists_lines {left : Text} (h : ∀ c ∈ left, Text.endsLine c = false) (hne : left ≠ []) (behind : Text) :
    ∃ more later, Text.lines (left ++ behind) = (left ++ more) :: later := by
  induction left with
  | nil => exact absurd rfl hne
  | cons c left ih =>
    obtain ⟨hc, hleft⟩ := List.forall_mem_cons.1 h
    rw [List.cons_append, lines_cons hc]
    by_cases hempty : left = []
    · subst hempty
      rw [List.nil_append]
      cases behind.lines with
      | nil => exact ⟨[], [], rfl⟩
      | cons first later => exact ⟨first, later, rfl⟩
    · obtain ⟨more, later, hlines⟩ := ih hleft hempty
      exact ⟨more, later, by rw [hlines]; rfl⟩

/-- Only the last character of a line may be a line feed. -/
lemma not_mem_dropLast_of_mem_lines {t line : Text} (h : line ∈ t.lines) : '\n' ∉ line.dropLast := by
  fun_induction Text.lines t generalizing line with
  | case1 => cases h
  | case2 rest ih =>
    rcases List.mem_cons.1 h with rfl | h
    · decide
    · exact ih h
  | case3 c rest hpair hends ih =>
    rcases List.mem_cons.1 h with rfl | h
    · exact List.not_mem_nil
    · exact ih h
  | case4 c rest hpair hends ih =>
    have hc : '\n' ≠ c := by
      rintro rfl
      exact hends rfl
    cases hlines : Text.lines rest with
    | nil =>
      rw [hlines] at h
      obtain rfl := List.mem_singleton.1 h
      exact List.not_mem_nil
    | cons first later =>
      rw [hlines] at h ih
      rcases List.mem_cons.1 h with rfl | h
      · cases first with
        | nil => exact List.not_mem_nil
        | cons d first =>
          rw [List.dropLast_cons_of_ne_nil (List.cons_ne_nil _ _), List.mem_cons, not_or]
          exact ⟨hc, ih List.mem_cons_self⟩
      · exact ih (List.mem_cons_of_mem _ h)

/-! ## Line ends that are dropped -/

lemma dropEnd_concat (c d : Char) (t : Text) :
    Text.dropEnd c (t ++ [d]) = if d = c then t.dropEnd c else t ++ [d] := by
  rw [Text.dropEnd, List.reverse_append, List.reverse_singleton, List.singleton_append, List.dropWhile_cons]
  simp only [beq_iff_eq]
  split
  · rfl
  · rw [List.reverse_cons, List.reverse_reverse]

lemma mem_of_mem_dropEnd {c d : Char} {t : Text} (h : d ∈ t.dropEnd c) : d ∈ t := by
  rw [Text.dropEnd, List.mem_reverse] at h
  exact List.mem_reverse.1 ((List.dropWhile_suffix _).mem h)

lemma not_mem_dropEnd {c : Char} {t : Text} (h : c ∉ t.dropLast) : c ∉ t.dropEnd c := by
  cases t using List.reverseRecOn with
  | nil => exact List.not_mem_nil
  | append_singleton t d =>
    rw [List.dropLast_concat] at h
    rw [dropEnd_concat]
    split
    · exact fun hmem => h (mem_of_mem_dropEnd hmem)
    next hd => simpa [Ne.symm hd] using h

/-- What is dropped at the end of a text stops at other characters. -/
lemma dropEnd_append {c : Char} {left : Text} (h : c ∉ left) (more : Text) :
    ∃ kept, Text.dropEnd c (left ++ more) = left ++ kept := by
  induction more using List.reverseRecOn with
  | nil =>
    refine ⟨[], ?_⟩
    rw [List.append_nil]
    cases left using List.reverseRecOn with
    | nil => rfl
    | append_singleton left d =>
      have hd : d ≠ c := fun heq => h (by simp [heq])
      rw [dropEnd_concat, if_neg hd]
  | append_singleton more d ih =>
    rw [← List.append_assoc, dropEnd_concat]
    split
    · exact ih
    · exact ⟨more ++ [d], List.append_assoc _ _ _⟩

/-! ## The line that is shown -/

lemma feed_not_mem_sourceLine (source : Text) (line : Int) : '\n' ∉ Diagnostic.sourceLine source line := by
  rw [Diagnostic.sourceLine]
  split
  · exact List.not_mem_nil
  · refine fun hmem => not_mem_dropEnd ?_ (mem_of_mem_dropEnd hmem)
    cases hindex : source.lines[(line - 1).toNat]? with
    | none => exact List.not_mem_nil
    | some row => exact not_mem_dropLast_of_mem_lines (List.mem_of_getElem? hindex)

/-- Behind rows that a display does not break, it shows the next row from its beginning on. -/
lemma sourceLine_of_plainRows {above : List Text} {left : Text} (habove : ∀ row ∈ above, row.IsPlainRow)
    (hleft : ∀ c ∈ left, Text.endsLine c = false) (hne : left ≠ []) (behind : Text) :
    ∃ more, Diagnostic.sourceLine (above.flatMap (· ++ ['\n']) ++ (left ++ behind)) (above.length + 1) =
      left ++ more := by
  obtain ⟨more, later, hlines⟩ := exists_lines hleft hne behind
  have hindex : (Text.lines (above.flatMap (· ++ ['\n']) ++ (left ++ behind)))[((above.length : Int) + 1 - 1).toNat]? =
      some (left ++ more) := by
    rw [lines_plainRows habove, hlines, add_sub_cancel_right, Int.toNat_natCast,
      List.getElem?_append_right (by simp)]
    simp
  have hfeed : '\n' ∉ left := fun hmem => absurd (hleft _ hmem) (by decide)
  have hreturn : '\r' ∉ left := fun hmem => absurd (hleft _ hmem) (by decide)
  obtain ⟨kept, hkept⟩ := dropEnd_append hfeed more
  obtain ⟨kept', hkept'⟩ := dropEnd_append hreturn kept
  refine ⟨kept', ?_⟩
  rw [Diagnostic.sourceLine, if_neg (by omega), hindex, Option.getD_some, hkept, hkept']

/-- Where a display breaks a source at its line feeds only, up to the end of some text on one row, it shows that
text from its column on. -/
lemma drop_sourceLine {before marked : Text} (h : Text.BreaksAtFeeds (before ++ marked)) (hne : marked ≠ [])
    (hline : '\n' ∉ marked) (behind : Text) :
    ∃ more, (Diagnostic.sourceLine (before ++ (marked ++ behind)) (Position.origin.after before).line).drop
      ((Position.origin.after before).column - 1).toNat = marked ++ more := by
  obtain ⟨above, left, hlast⟩ := exists_lastRow before
  obtain ⟨above', left', hrows, habove, hleft⟩ := h
  rw [hlast.rows_append_of_not_mem hline] at hrows
  obtain ⟨rfl, hrow⟩ := List.append_inj' hrows rfl
  obtain rfl := List.singleton_inj.1 hrow
  obtain ⟨more, hshown⟩ := sourceLine_of_plainRows habove hleft (List.append_ne_nil_of_right_ne_nil _ hne) behind
  refine ⟨more, ?_⟩
  have hsource : before ++ (marked ++ behind) = above.flatMap (· ++ ['\n']) ++ (left ++ marked ++ behind) := by
    rw [hlast.eq_flatMap, List.append_assoc, List.append_assoc]
  rw [hlast.position, hsource]
  dsimp only
  rw [hshown, add_sub_cancel_right, Int.toNat_natCast, List.append_assoc, List.drop_left]

/-- A character that ends no line can be appended to a text that a display breaks at its line feeds only. -/
lemma breaksAtFeeds_concat {t : Text} {c : Char} (h : t.BreaksAtFeeds) (hc : Text.endsLine c = false) :
    Text.BreaksAtFeeds (t ++ [c]) := by
  obtain ⟨above, left, hrows, habove, hleft⟩ := h
  obtain ⟨above', left', hlast⟩ := exists_lastRow t
  rw [hlast.rows_eq] at hrows
  obtain ⟨rfl, hrow⟩ := List.append_inj' hrows rfl
  obtain rfl := List.singleton_inj.1 hrow
  have hfeed : '\n' ∉ [c] := fun hmem => by
    obtain rfl := List.mem_singleton.1 hmem
    cases hc
  refine ⟨above', left' ++ [c], hlast.rows_append_of_not_mem hfeed, habove, ?_⟩
  exact List.forall_mem_append.2 ⟨hleft, List.forall_mem_singleton.2 hc⟩

/-- A character that is seen ends no line. -/
lemma endsLine_of_not_separator {c : Char} (h : isSeparator c = false) : Text.endsLine c = false := by
  by_contra hends
  simp only [Text.endsLine, Bool.or_eq_true, decide_eq_true_eq, Bool.not_eq_false] at hends
  rcases hends with ((((((((rfl | rfl) | rfl) | rfl) | rfl) | rfl) | rfl) | rfl) | rfl) | rfl <;>
    exact absurd h (by decide)

/-! ## Carets -/

/-- The characters above the carets of a display: those of the last row but one, where the last row has a caret. -/
def aboveCarets (display : Text) : Text :=
  match display.rows.reverse with
  | carets :: shown :: _ => ((shown.zip carets).filter fun pair => pair.2 = '^').map Prod.fst
  | _ => []

lemma feed_not_mem_intText (n : Int) : '\n' ∉ intText n := by
  have hdigits : '\n' ∉ natText n.natAbs := fun hmem =>
    absurd (List.all_eq_true.1 (all_isDecimal_natText n.natAbs) _ hmem) (by decide)
  rw [intText]
  split
  · simpa using hdigits
  · exact hdigits

lemma zip_carets (shown : Text) (count : Nat) :
    ((shown.zip (List.replicate count '^')).filter fun pair => pair.2 = '^').map Prod.fst = shown.take count := by
  induction shown generalizing count with
  | nil => simp
  | cons c shown ih =>
    cases count with
    | zero => rfl
    | succ count => simpa [List.replicate_succ] using ih count

/-- What stands above other marks in front of the carets does not count. -/
lemma zip_append_carets {marks : Text} (hmarks : '^' ∉ marks) (shown carets : Text) :
    (shown.zip (marks ++ carets)).filter (fun pair => pair.2 = '^') =
      ((shown.drop marks.length).zip carets).filter fun pair => pair.2 = '^' := by
  induction marks generalizing shown with
  | nil => rfl
  | cons mark marks ih =>
    obtain ⟨hmark, hmarks⟩ := not_or.1 (List.mem_cons.not.1 hmarks)
    cases shown with
    | nil => rfl
    | cons c shown =>
      rw [List.cons_append, List.zip_cons_cons, List.filter_cons_of_neg (by simpa using Ne.symm hmark), ih hmarks,
        List.length_cons, List.drop_succ_cons]

/-- The last two rows of a display hold the line of the source and the carets, both behind a gutter. -/
lemma rows_display {d : Diagnostic} {span : Span} {source : Text} (filename : Text) (hspan : d.span = some span)
    (hsource : source ≠ []) :
    ∃ above, (d.display source filename).rows =
      above ++ [intText span.start.line ++ " | ".toList ++ Diagnostic.sourceLine source span.start.line,
        List.replicate ((intText span.start.line).length + 1) ' ' ++ "| ".toList ++
          (List.replicate (span.start.column - 1).toNat ' ' ++
            List.replicate (Diagnostic.caretCount span (Diagnostic.sourceLine source span.start.line)) '^')] := by
  have hempty : source.isEmpty = false := List.isEmpty_eq_false_iff.2 hsource
  have hnumber := feed_not_mem_intText span.start.line
  obtain ⟨number, hname⟩ : ∃ number, intText span.start.line = number := ⟨_, rfl⟩
  obtain ⟨shown, hshown⟩ : ∃ shown, Diagnostic.sourceLine source span.start.line = shown := ⟨_, rfl⟩
  have hfeed := feed_not_mem_sourceLine source span.start.line
  rw [hshown] at hfeed
  rw [hname] at hnumber
  have hlineRow : '\n' ∉ number ++ " | ".toList ++ shown := by
    rw [List.mem_append, not_or, List.mem_append, not_or]
    exact ⟨⟨hnumber, by decide⟩, hfeed⟩
  have hcaretRow : '\n' ∉ List.replicate (number.length + 1) ' ' ++ "| ".toList ++
      (List.replicate (span.start.column - 1).toNat ' ' ++
        List.replicate (Diagnostic.caretCount span shown) '^') := by
    simp only [List.mem_append, List.mem_replicate, not_or]
    exact ⟨⟨by simp, by decide⟩, by simp, by simp⟩
  have hbar : "|\n".toList = "|".toList ++ ['\n'] := rfl
  have hbreak : "\n".toList = ['\n'] := rfl
  obtain ⟨head, hdisplay⟩ : ∃ head, d.display source filename = head ++
      '\n' :: (number ++ " | ".toList ++ shown ++ '\n' :: (List.replicate (number.length + 1) ' ' ++ "| ".toList ++
        (List.replicate (span.start.column - 1).toNat ' ' ++
          List.replicate (Diagnostic.caretCount span shown) '^'))) := by
    refine ⟨"error: ".toList ++ d.headline ++ "\n".toList ++ List.replicate (number.length + 1) ' ' ++
      "--> ".toList ++ filename ++ ":".toList ++ number ++ ":".toList ++ intText span.start.column ++
      "\n".toList ++ List.replicate (number.length + 1) ' ' ++ "|".toList, ?_⟩
    rw [Diagnostic.display, hspan]
    dsimp only
    rw [hempty, hshown, hname]
    simp only [Bool.false_eq_true, if_false, hbar, hbreak, List.append_assoc, List.cons_append, List.nil_append]
  refine ⟨Text.rows head, ?_⟩
  rw [hdisplay, hname, hshown, Text.rows, List.splitOn_append_cons_self,
    List.splitOn_append_cons_self_of_not_mem hlineRow, List.splitOn_eq_singleton hcaretRow]
  rfl

/-- The carets stand under what the shown line has from the column of the diagnostic on. -/
lemma aboveCarets_display {d : Diagnostic} {span : Span} {source : Text} (filename : Text)
    (hspan : d.span = some span) (hsource : source ≠ []) :
    aboveCarets (d.display source filename) =
      ((Diagnostic.sourceLine source span.start.line).drop (span.start.column - 1).toNat).take
        (Diagnostic.caretCount span (Diagnostic.sourceLine source span.start.line)) := by
  obtain ⟨above, hrows⟩ := rows_display filename hspan hsource
  obtain ⟨number, hnumber⟩ : ∃ number, intText span.start.line = number := ⟨_, rfl⟩
  obtain ⟨shown, hshown⟩ : ∃ shown, Diagnostic.sourceLine source span.start.line = shown := ⟨_, rfl⟩
  have hgutter : '^' ∉ List.replicate (number.length + 1) ' ' ++ "| ".toList := by
    simp
  have hdrop : (number ++ " | ".toList ++ shown).drop
      (List.replicate (number.length + 1) ' ' ++ "| ".toList).length = shown := by
    have hlength : (List.replicate (number.length + 1) ' ' ++ "| ".toList).length =
        (number ++ " | ".toList).length := by
      rw [List.length_append, List.length_append, List.length_replicate]
      rfl
    rw [hlength, List.drop_left]
  rw [aboveCarets, hrows, hnumber, hshown]
  simp only [List.reverse_append, List.reverse_cons, List.reverse_nil, List.nil_append, List.cons_append]
  rw [zip_append_carets hgutter, hdrop, zip_append_carets (by simp), List.length_replicate, zip_carets]

lemma caretCount_of_line {p : Position} {flagged : Text} (hne : flagged ≠ []) (hline : '\n' ∉ flagged)
    (shown : Text) : Diagnostic.caretCount (p.span flagged) shown = flagged.length := by
  have hlength := List.length_pos_iff.2 hne
  rw [Diagnostic.caretCount, Position.span, after_of_not_mem hline]
  dsimp only
  rw [if_pos rfl]
  omega

/-- There is a caret in any case. -/
lemma head?_aboveCarets {d : Diagnostic} {span : Span} {source : Text} (filename : Text)
    (hspan : d.span = some span) (hsource : source ≠ []) :
    (aboveCarets (d.display source filename)).head? =
      ((Diagnostic.sourceLine source span.start.line).drop (span.start.column - 1).toNat).head? := by
  have hcount : Diagnostic.caretCount span (Diagnostic.sourceLine source span.start.line) ≠ 0 := by
    rw [Diagnostic.caretCount]
    omega
  rw [aboveCarets_display filename hspan hsource, List.head?_take, if_neg hcount]

/-! ## Diagnostics of programs -/

/-- The display of a program's diagnostic marks the text at fault. If that text is on one line, and the display
breaks the source at its line feeds only up to the end of that text, then the characters above the carets are the
text at fault. If it goes over several lines, and the display breaks the source so up to the beginning of that text,
then the first caret stands under its first character. -/
theorem carets_mark_fault {source : Text} {d : Diagnostic} (h : program source = .error (.diagnostic d))
    (filename : Text) :
    ∃ span, d.span = some span ∧
      (span.stop.line = span.start.line → Text.BreaksAtFeeds (source.take span.stop.offset.toNat) →
        aboveCarets (d.display source filename) = source.slice span.start span.stop) ∧
      (span.stop.line ≠ span.start.line → Text.BreaksAtFeeds (source.take span.start.offset.toNat) →
        (aboveCarets (d.display source filename)).head? = source[span.start.offset.toNat]?) := by
  obtain ⟨span, hspan, hplaced, c, hc, hseen⟩ := marks_of_program h
  refine ⟨span, hspan, ?_⟩
  obtain ⟨before, flagged, behind, rfl, hne, rfl⟩ := hplaced.exists_split
  have hslice := slice_after before flagged behind
  rw [Position.after_append] at hslice
  have hsource : before ++ (flagged ++ behind) ≠ [] := by simp [hne]
  constructor
  · intro hline hbreaks
    have hfeed := (line_after_eq_iff _ _).1 hline
    rw [Position.span, ← Position.after_append, offset_after_origin, Int.toNat_natCast, ← List.append_assoc,
      List.take_left] at hbreaks
    obtain ⟨more, hshown⟩ := drop_sourceLine hbreaks hne hfeed behind
    rw [aboveCarets_display filename hspan hsource, caretCount_of_line hne hfeed, Position.span, hslice, hshown,
      List.take_left]
  · intro _ hbreaks
    rw [Position.span, offset_after_origin, Int.toNat_natCast] at hc hbreaks ⊢
    rw [List.take_left] at hbreaks
    rw [List.getElem?_append_right (Nat.le_refl _), Nat.sub_self] at hc ⊢
    obtain ⟨first, tail, rfl⟩ := List.exists_cons_of_ne_nil hne
    obtain rfl : first = c := Option.some.inj hc
    have hends := endsLine_of_not_separator hseen
    have hfeed : '\n' ∉ [first] := fun hmem => by
      obtain rfl := List.mem_singleton.1 hmem
      cases hends
    obtain ⟨more, hshown⟩ :=
      drop_sourceLine (breaksAtFeeds_concat hbreaks hends) (List.cons_ne_nil _ _) hfeed (tail ++ behind)
    rw [head?_aboveCarets filename hspan hsource]
    exact congrArg List.head? hshown

lemma breaksAtFeeds_sample : Text.BreaksAtFeeds "; a\r\n (]".toList :=
  ⟨["; a\r".toList], " (]".toList, by decide,
    List.forall_mem_singleton.2 ⟨"; a".toList, .inr rfl, by simp [Text.endsLine]⟩, by simp [Text.endsLine]⟩

theorem carets_mark_fault_sample :
    ∃ d span, program "; a\r\n (]".toList = .error (.diagnostic d) ∧ d.span = some span ∧
      Text.slice "; a\r\n (]".toList span.start span.stop = "]".toList ∧
      aboveCarets (d.display "; a\r\n (]".toList "a".toList) = "]".toList := by
  have hprogram : program "; a\r\n (]".toList = .error (.diagnostic
      ⟨.mismatchedCloser ")".toList "]".toList, some ⟨⟨2, 3, 7⟩, ⟨2, 4, 8⟩⟩⟩) := by cbv
  obtain ⟨span, hspan, hline, -⟩ := carets_mark_fault hprogram "a".toList
  obtain rfl := Option.some.inj hspan
  have hslice : Text.slice "; a\r\n (]".toList ⟨2, 3, 7⟩ ⟨2, 4, 8⟩ = "]".toList := by decide
  exact ⟨_, _, hprogram, rfl, hslice, (hline rfl breaksAtFeeds_sample).trans hslice⟩

/-- A form feed ends a line of a display, but not a line of the scanner. So the display shows the text in front of
it, and nothing stands above the caret. -/
theorem carets_miss_fault :
    ∃ d span, program "\x0c)".toList = .error (.diagnostic d) ∧ d.span = some span ∧
      span.stop.line = span.start.line ∧ Text.slice "\x0c)".toList span.start span.stop = ")".toList ∧
      aboveCarets (d.display "\x0c)".toList "input.clj".toList) = [] := by
  have hprogram : program "\x0c)".toList = .error (.diagnostic
      ⟨.extraCloser ")".toList, some ⟨⟨1, 2, 1⟩, ⟨1, 3, 2⟩⟩⟩) := by cbv
  have hdisplay : aboveCarets (Diagnostic.display ⟨.extraCloser ")".toList, some ⟨⟨1, 2, 1⟩, ⟨1, 3, 2⟩⟩⟩
      "\x0c)".toList "input.clj".toList) = _ := aboveCarets_display _ rfl (by decide)
  exact ⟨_, _, hprogram, rfl, rfl, by decide, hdisplay.trans (by decide)⟩

end Bilisp
