import Bilisp.Proofs.Scanning
import Mathlib.Data.List.Induction

/-!
# The tokens of a source tile it

Between the tokens of a source stand blanks, commas and comments only, each token carries the text of its span,
and every position counts the lines and columns in front of it (`Tiles`). The scanner keeps its position by
advancing over what it takes, so the proof is one induction on the tokens, with the text in front of them as the
parameter.
-/

namespace Bilisp

/-! ## Places -/

/-- The position of an offset in a source: lines are counted by line feeds, columns from the last one. -/
def Text.place (source : Text) (offset : Nat) : Position where
  line := 1 + (source.take offset).count '\n'
  column := 1 + ((source.take offset).reverse.takeWhile (· != '\n')).length
  offset := offset

/-- The text between two positions of a source. -/
def Text.slice (source : Text) (start stop : Position) : Text :=
  (source.take stop.offset.toNat).drop start.offset.toNat

/-- Whether a span covers some of the source and its ends know their lines and columns. -/
structure Span.Placed (source : Text) (span : Span) : Prop where
  start : span.start = source.place span.start.offset.toNat
  stop : span.stop = source.place span.stop.offset.toNat
  ordered : span.start.offset < span.stop.offset
  inside : span.stop.offset ≤ source.length

lemma after_origin (t : Text) :
    Position.origin.after t =
      ⟨1 + t.count '\n', 1 + (t.reverse.takeWhile (· != '\n')).length, t.length⟩ := by
  induction t using List.reverseRecOn with
  | nil => rfl
  | append_singleton t c ih =>
    rw [Position.after_append, ih, Position.after_cons, Position.after_nil, Position.next]
    by_cases hc : c = '\n'
    · subst hc
      simp [List.count_append, Int.add_assoc]
    · have hne : (c != '\n') = true := by simpa using hc
      simp [List.count_append, hc, hne]
      omega

/-- Advancing over the beginning of a source leads to the place behind it. -/
lemma after_origin_eq_place (before behind : Text) :
    Position.origin.after before = Text.place (before ++ behind) before.length := by
  rw [after_origin, Text.place, List.take_left]

@[simp] lemma offset_after_origin (t : Text) : (Position.origin.after t).offset = t.length := by
  rw [after_origin]

/-- The text between two places that are reached by advancing. -/
lemma slice_after (before middle behind : Text) :
    Text.slice (before ++ (middle ++ behind)) (Position.origin.after before)
      (Position.origin.after (before ++ middle)) = middle := by
  rw [Text.slice, offset_after_origin, offset_after_origin, Int.toNat_natCast, Int.toNat_natCast,
    ← List.append_assoc, List.take_left, List.drop_left]

lemma offset_after_le (before t : Text) :
    (Position.origin.after before).offset ≤ (Position.origin.after (before ++ t)).offset := by
  rw [offset_after_origin, offset_after_origin, List.length_append]
  omega

lemma placed_span (before : Text) {flagged : Text} (hne : flagged ≠ []) (behind : Text) :
    ((Position.origin.after before).span flagged).Placed (before ++ (flagged ++ behind)) := by
  have hstop : (Position.origin.after before).after flagged = Position.origin.after (before ++ flagged) :=
    (Position.after_append _ _ _).symm
  have hlength := List.length_pos_iff.2 hne
  refine ⟨?_, ?_, ?_, ?_⟩
  · rw [Position.span, offset_after_origin, Int.toNat_natCast]
    exact after_origin_eq_place before (flagged ++ behind)
  · rw [Position.span, hstop, offset_after_origin, Int.toNat_natCast, ← List.append_assoc]
    exact after_origin_eq_place (before ++ flagged) behind
  · rw [Position.span, hstop, offset_after_origin, offset_after_origin, List.length_append]
    omega
  · rw [Position.span, hstop, offset_after_origin, List.length_append, List.length_append, List.length_append]
    omega

/-! ## Gaps -/

/-- Text between tokens: separators, and comments with the line feed that ends them. Only at the end of a source
may a comment lack its line feed. -/
inductive IsGap (atEnd : Bool) : Text → Prop
  | nil : IsGap atEnd []
  | separator {c : Char} {t : Text} (hc : isSeparator c = true) (ht : IsGap atEnd t) : IsGap atEnd (c :: t)
  | comment {body t : Text} (hbody : '\n' ∉ body) (ht : IsGap atEnd t) :
    IsGap atEnd (';' :: (body ++ '\n' :: t))
  | openComment {body : Text} (hbody : '\n' ∉ body) (hend : atEnd = true) : IsGap atEnd (';' :: body)

/-- What a text begins with inside a comment: the rest of the comment and a gap, or, at the end of a source, the
rest of the comment alone. -/
lemma gap_of_comment {atEnd : Bool} {t : Text}
    (h : (∃ body gap, t = body ++ '\n' :: gap ∧ '\n' ∉ body ∧ IsGap atEnd gap) ∨
      ('\n' ∉ t ∧ atEnd = true)) : IsGap atEnd (';' :: t) := by
  rcases h with ⟨body, gap, rfl, hbody, hgap⟩ | ⟨hbody, hend⟩
  · exact .comment hbody hgap
  · exact .openComment hbody hend

/-- What is ignored in front of a token is a gap. -/
lemma isGap_splitIgnored (t : Text) : IsGap (splitIgnored false t).2.isEmpty (splitIgnored false t).1 := by
  suffices h : IsGap (splitIgnored false t).2.isEmpty (splitIgnored false t).1 ∧
      ((∃ body gap, (splitIgnored true t).1 = body ++ '\n' :: gap ∧ '\n' ∉ body ∧
          IsGap (splitIgnored true t).2.isEmpty gap) ∨
        ('\n' ∉ (splitIgnored true t).1 ∧ (splitIgnored true t).2.isEmpty = true)) from h.1
  induction t with
  | nil => exact ⟨.nil, .inr ⟨List.not_mem_nil, rfl⟩⟩
  | cons c t ih =>
    obtain ⟨hplain, hcomment⟩ := ih
    constructor
    · rw [splitIgnored]
      split
      next hc => exact .separator hc hplain
      next =>
        split
        next hc =>
          subst hc
          exact gap_of_comment hcomment
        next => exact .nil
    · rw [splitIgnored]
      by_cases hc : c = '\n'
      · subst hc
        exact .inl ⟨[], _, rfl, List.not_mem_nil, hplain⟩
      · have hne : (c != '\n') = true := by simpa using hc
        rw [hne]
        rcases hcomment with ⟨body, gap, hbody, hline, hgap⟩ | ⟨hline, hend⟩
        · refine .inl ⟨c :: body, gap, congrArg (c :: ·) hbody, ?_, hgap⟩
          rw [List.mem_cons, not_or]
          exact ⟨Ne.symm hc, hline⟩
        · refine .inr ⟨?_, hend⟩
          rw [List.mem_cons, not_or]
          exact ⟨Ne.symm hc, hline⟩

/-! ## Faults -/

/-- Whether a fault lies at the beginning of a text: it flags some characters behind `lead` and is about the
text itself. -/
def FaultsIn (t lead flagged : Text) (cause : Cause) : Prop :=
  (∃ rest, lead ++ (flagged ++ rest) = t) ∧ flagged ≠ [] ∧ cause.isReading = true

lemma faultsIn_invalid {t raw reason lead flagged : Text} {cause : Cause}
    (h : Scan.invalid raw reason = .rejected lead flagged cause) (hraw : ∃ rest, raw ++ rest = t)
    (hne : raw ≠ []) : FaultsIn t lead flagged cause := by
  simp only [Scan.invalid, Scan.rejected.injEq] at h
  obtain ⟨rfl, rfl, rfl⟩ := h
  exact ⟨hraw, hne, rfl⟩

lemma faultsIn_shortEscape {t lead flagged : Text} {cause : Cause}
    (h : shortEscape t = .broken lead flagged cause) : FaultsIn ('\\' :: 'u' :: t) lead flagged cause := by
  unfold shortEscape at h
  dsimp only at h
  split at h
  · cases h
  · simp only [StringScan.broken.injEq] at h
    obtain ⟨rfl, rfl, rfl⟩ := h
    refine ⟨⟨(t.take 4).dropWhile isHexDigit ++ t.drop 4, ?_⟩, List.cons_ne_nil _ _, rfl⟩
    have hdigits : (t.take 4).takeWhile isHexDigit ++ ((t.take 4).dropWhile isHexDigit ++ t.drop 4) = t := by
      rw [← List.append_assoc, List.takeWhile_append_dropWhile, List.take_append_drop]
    exact congrArg (fun rest => '\\' :: 'u' :: rest) hdigits

lemma faultsIn_behind {s : StringScan} {raw t lead flagged : Text} {c : Char} {cause : Cause}
    (h : s.behind raw c = .broken lead flagged cause)
    (ih : ∀ {lead flagged cause}, s = .broken lead flagged cause → FaultsIn t lead flagged cause) :
    FaultsIn (raw ++ t) lead flagged cause := by
  cases s <;> simp only [StringScan.behind, StringScan.broken.injEq, reduceCtorEq] at h
  obtain ⟨rfl, rfl, rfl⟩ := h
  obtain ⟨⟨rest, hrest⟩, hne, hreading⟩ := ih rfl
  exact ⟨⟨rest, by rw [List.append_assoc, hrest]⟩, hne, hreading⟩

lemma faultsIn_scanString {t lead flagged : Text} {cause : Cause}
    (h : scanString t = .broken lead flagged cause) : FaultsIn t lead flagged cause := by
  fun_induction scanString t generalizing lead flagged cause with
  | case1 => cases h
  | case2 => cases h
  | case3 =>
    cases h
    exact ⟨⟨[], rfl⟩, List.cons_ne_nil _ _, rfl⟩
  | case4 a b c d more _ ih => exact faultsIn_behind h ih
  | case5 => exact faultsIn_shortEscape h
  | case6 => exact faultsIn_shortEscape h
  | case7 _ _ _ _ _ ih => exact faultsIn_behind h ih
  | case8 =>
    cases h
    exact ⟨⟨_, rfl⟩, List.cons_ne_nil _ _, rfl⟩
  | case9 _ _ _ _ _ _ ih => exact faultsIn_behind h ih

lemma faultsIn_scanStringToken {t lead flagged : Text} {cause : Cause}
    (h : scanStringToken t = .rejected lead flagged cause) : FaultsIn ('"' :: t) lead flagged cause := by
  simp only [scanStringToken] at h
  split at h <;> simp only [Scan.rejected.injEq, reduceCtorEq] at h
  · obtain ⟨rfl, rfl, rfl⟩ := h
    exact ⟨⟨[], by simp⟩, List.cons_ne_nil _ _, rfl⟩
  next hs =>
    obtain ⟨rfl, rfl, rfl⟩ := h
    obtain ⟨⟨rest, hrest⟩, hne, hreading⟩ := faultsIn_scanString hs
    exact ⟨⟨rest, congrArg ('"' :: ·) hrest⟩, hne, hreading⟩

lemma faultsIn_scanNumber {first t lead flagged : Text} {cause : Cause} (hfirst : first ≠ [])
    (h : scanNumber first t = .rejected lead flagged cause) : FaultsIn (first ++ t) lead flagged cause := by
  simp only [scanNumber] at h
  split at h
  · cases h
  · refine faultsIn_invalid h ⟨behindAtom t, ?_⟩ (by simp [hfirst])
    rw [List.append_assoc, atomPart_append_behindAtom]

lemma faultsIn_scanSymbol {c : Char} {t lead flagged : Text} {cause : Cause}
    (h : scanSymbol c t = .rejected lead flagged cause) : FaultsIn (c :: t) lead flagged cause := by
  simp only [scanSymbol] at h
  split at h
  · cases h
  · refine faultsIn_invalid h ⟨behindAtom t, ?_⟩ (List.cons_ne_nil _ _)
    rw [List.cons_append, atomPart_append_behindAtom]

lemma faultsIn_scanColon {t lead flagged : Text} {cause : Cause}
    (h : scanColon t = .rejected lead flagged cause) : FaultsIn (':' :: t) lead flagged cause := by
  rcases scanColon_cases t with ⟨-, hscan⟩ | ⟨-, hscan⟩
  · rw [hscan] at h
    exact faultsIn_scanSymbol h
  · rw [hscan] at h
    split at h
    · cases h
    · refine faultsIn_invalid h ⟨behindAtom t, ?_⟩ (List.cons_ne_nil _ _)
      rw [List.cons_append, atomPart_append_behindAtom]

lemma faultsIn_scanCharacter {t lead flagged : Text} {cause : Cause}
    (h : scanCharacter t = .rejected lead flagged cause) : FaultsIn ('\\' :: t) lead flagged cause := by
  cases t with
  | nil => exact faultsIn_invalid h ⟨[], rfl⟩ (List.cons_ne_nil _ _)
  | cons c t =>
    simp only [scanCharacter] at h
    split at h
    · cases h
    · refine faultsIn_invalid h ⟨t.dropWhile isAlphanumeric, ?_⟩ (List.cons_ne_nil _ _)
      rw [List.cons_append, List.cons_append, List.takeWhile_append_dropWhile]

lemma faultsIn_scanHash {t lead flagged : Text} {cause : Cause}
    (h : scanHash t = .rejected lead flagged cause) : FaultsIn ('#' :: t) lead flagged cause := by
  unfold scanHash at h
  split at h
  · cases h
  · exact faultsIn_scanNumber (List.cons_ne_nil _ _) h
  · refine faultsIn_invalid h ⟨behindAtom t, ?_⟩ (List.cons_ne_nil _ _)
    rw [List.cons_append, atomPart_append_behindAtom]

/-- A scanner that finds a fault flags a part of the text that it looks at. -/
lemma faultsIn_scanToken {c : Char} {t lead flagged : Text} {cause : Cause}
    (h : scanToken c t = .rejected lead flagged cause) : FaultsIn (c :: t) lead flagged cause := by
  unfold scanToken at h
  split at h
  case h_9 => split at h <;> cases h
  case h_10 => exact faultsIn_scanHash h
  case h_11 => exact faultsIn_scanStringToken h
  case h_12 => exact faultsIn_scanCharacter h
  case h_13 => exact faultsIn_scanColon h
  case h_14 =>
    split at h
    · exact faultsIn_scanNumber (List.cons_ne_nil _ _) h
    · exact faultsIn_scanSymbol h
  all_goals cases h

/-! ## Tilings -/

/-- The tokens tile the source from a position on. A token has some text, which is the text of its span, and a
gap in front of it; at the end of the source there may be a gap; and a diagnostic of the scanner is about the
text of its span, which lies behind the tokens. -/
inductive Tiles (source : Text) : Position → Tokens → Prop
  | next {here : Position} {token : Token} {behind : Tokens}
    (hgap : IsGap false (source.slice here token.span.start))
    (horder : here.offset ≤ token.span.start.offset) (hplaced : token.span.Placed source)
    (hraw : token.raw = source.slice token.span.start token.span.stop) (hne : token.raw ≠ [])
    (hbehind : Tiles source token.span.stop behind) : Tiles source here (.next token behind)
  | done {here stop : Position} (hgap : IsGap true (source.slice here stop))
    (horder : here.offset ≤ stop.offset) (hstop : stop = source.place source.length) :
    Tiles source here (.done stop)
  | failed {here : Position} {fault : Fault}
    (hfault : ∀ d, fault = .diagnostic d → d.cause.isReading = true ∧
      ∃ span, d.span = some span ∧ span.Placed source ∧ here.offset ≤ span.start.offset) :
    Tiles source here (.failed fault)

/-- The tokens of the rest of a source tile it from there on. -/
lemma tiles_tokensFrom (before t : Text) :
    Tiles (before ++ t) (Position.origin.after before) (tokensFrom (Position.origin.after before) t) := by
  induction hlength : t.length using Nat.strongRecOn generalizing before t with
  | _ n ih =>
    subst hlength
    have hsplit := splitIgnored_append false t
    have hgap := isGap_splitIgnored t
    rw [tokensFrom_eq]
    obtain ⟨ignored, hignored⟩ : ∃ ignored, (splitIgnored false t).1 = ignored := ⟨_, rfl⟩
    obtain ⟨behind, hbehind⟩ : ∃ behind, (splitIgnored false t).2 = behind := ⟨_, rfl⟩
    rw [hignored, hbehind] at hsplit hgap
    rw [hignored, hbehind, ← hsplit, ← Position.after_append]
    have hslice := slice_after before ignored behind
    have horder := offset_after_le before ignored
    cases behind with
    | nil =>
      refine .done (hslice.symm ▸ hgap) horder ?_
      have hplace := after_origin_eq_place (before ++ ignored) []
      rwa [List.append_nil] at hplace ⊢
    | cons c rest =>
      rw [tokensAt]
      cases hscan : scanToken c rest with
      | token lexeme raw behind =>
        obtain ⟨htaken, hpositive⟩ := scanToken_split hscan
        have hne : raw ≠ [] := List.length_pos_iff.1 hpositive
        have hrest := ih behind.length ?_ (before ++ ignored ++ raw) behind rfl
        · have hraw := slice_after (before ++ ignored) raw behind
          rw [List.append_assoc] at hrest
          rw [Position.after_append _ (before ++ ignored)] at hrest hraw
          rw [← htaken] at hslice ⊢
          rw [← List.append_assoc] at hslice ⊢
          exact .next (hslice.symm ▸ hgap) horder (placed_span (before ++ ignored) hne behind) hraw.symm hne hrest
        · have htext := congrArg List.length hsplit
          rw [← htaken, List.length_append, List.length_append] at htext
          omega
      | rejected lead flagged cause =>
        obtain ⟨⟨rest', hrest⟩, hne, hreading⟩ := faultsIn_scanToken hscan
        refine .failed fun d hd => ?_
        cases hd
        refine ⟨hreading, _, rfl, ?_, ?_⟩
        · rw [← hrest, ← Position.after_append, ← List.append_assoc, ← List.append_assoc]
          exact placed_span (before ++ ignored ++ lead) hne rest'
        · rw [Position.span, ← Position.after_append, List.append_assoc]
          exact offset_after_le before (ignored ++ lead)
      | pastEnd => exact .failed (by simp)

/-- Tokens that tile a source take its characters, so there are not more of them. -/
lemma Tiles.length_le {source : Text} {here : Position} {feed : Tokens} (h : Tiles source here feed)
    (hhere : here.offset ≤ source.length) : here.offset + feed.length ≤ source.length := by
  induction h with
  | next hgap horder hplaced hraw hne hbehind ih =>
    have hlength := ih hplaced.inside
    have hordered := hplaced.ordered
    rw [Feed.length_next]
    push_cast
    omega
  | done hgap horder hstop => simpa [Feed.length, Feed.items] using hhere
  | failed hfault => simpa [Feed.length, Feed.items] using hhere

/-- The tokens of a source, up to its end or to the first fault, tile it from its beginning on, and there are at
most as many of them as the source has characters. -/
theorem tokens_tile (source : Text) :
    Tiles source .origin (tokens source) ∧ (tokens source).length ≤ source.length := by
  have htiles : Tiles source .origin (tokens source) := tiles_tokensFrom [] source
  have hlength := htiles.length_le (Int.natCast_nonneg _)
  refine ⟨htiles, ?_⟩
  simp only [Position.origin] at hlength
  omega

end Bilisp
