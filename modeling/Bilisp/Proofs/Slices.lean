import Bilisp.Proofs.Layouts
import Bilisp.Proofs.MadeForms

/-!
# Spans are slices

The span of a form covers the text from the first to the last one of the tokens that make it. This text is read as the
form again, since tokens do not depend on what stands around them, and the elements of a form lie in its span one
behind the other (`spans_are_slices`).
-/

namespace Bilisp

/-! ## Spans in order -/

/-- Whether spans lie between two offsets, in order and without overlap. -/
def Span.InOrder : Int → Int → List Span → Prop
  | start, stop, [] => start ≤ stop
  | start, stop, span :: rest =>
    start ≤ span.start.offset ∧ span.start.offset < span.stop.offset ∧ InOrder span.stop.offset stop rest

namespace Span.InOrder

variable {start stop : Int} {spans : List Span}

lemma widen {start' stop' : Int} (h : InOrder start stop spans) (hstart : start' ≤ start) (hstop : stop ≤ stop') :
    InOrder start' stop' spans := by
  induction spans generalizing start start' with
  | nil => exact (hstart.trans h).trans hstop
  | cons span rest ih => exact ⟨hstart.trans h.1, h.2.1, ih h.2.2 le_rfl⟩

/-- The first spans of a row lie in the span from the first one to the last one of them. -/
lemma hull {first last : Span} {rest : List Span} (hfirst : spans.head? = some first)
    (hlast : spans.getLast? = some last) (h : InOrder start stop (spans ++ rest)) :
    start ≤ first.start.offset ∧ first.start.offset < last.stop.offset ∧ InOrder last.stop.offset stop rest := by
  induction spans generalizing start first with
  | nil => cases hfirst
  | cons span more ih =>
    obtain rfl : span = first := Option.some_inj.1 hfirst
    obtain ⟨hstart, hspan, hmore⟩ := h
    cases more with
    | nil =>
      obtain rfl : span = last := Option.some_inj.1 hlast
      exact ⟨hstart, hspan, hmore⟩
    | cons second more =>
      rw [List.getLast?_cons_cons] at hlast
      obtain ⟨hsecond, hends, hrest⟩ := ih rfl hlast hmore
      exact ⟨hstart, (hspan.trans_le hsecond).trans hends, hrest⟩

end Span.InOrder

lemma offset_after (p : Position) (t : Text) : (p.after t).offset = p.offset + t.length := by
  induction t generalizing p with
  | nil => simp
  | cons c t ih =>
    have hnext : (p.next c).offset = p.offset + 1 := by
      rw [Position.next]
      split <;> rfl
    rw [Position.after_cons, ih, hnext, List.length_cons]
    push_cast
    omega

namespace Takes

variable {p q : Position} {t rest : Text} {ts : List Token}

/-- Tokens lie in order in the text they are taken off. -/
lemma inOrder (h : Takes p t ts q rest) : Span.InOrder p.offset q.offset (ts.map Token.span) := by
  induction h with
  | nil => exact le_rfl
  | @next p q gap t rest token ts hgap hspan hscan hrest ih =>
    have hlength := List.length_pos_iff.2 hscan.raw_ne_nil
    have hstart : token.span.start = p.after gap := by rw [hspan]; rfl
    have hstop : token.span.stop = (p.after gap).after token.raw := by rw [hspan]; rfl
    refine ⟨?_, ?_, ih⟩
    · rw [hstart, offset_after]
      omega
    · rw [hstart, hstop, offset_after (p.after gap)]
      omega

/-- What is left begins where the last token ends. -/
lemma stop (h : Takes p t ts q rest) {last : Span} (hlast : (ts.map Token.span).getLast? = some last) :
    last.stop = q := by
  induction h with
  | nil => cases hlast
  | @next p q gap t rest token ts hgap hspan hscan hrest ih =>
    cases ts with
    | nil =>
      cases hrest
      cases hlast
      rfl
    | cons token' ts => exact ih (List.getLast?_cons_cons ▸ hlast)

end Takes

/-! ## The elements of a form -/

/-- Forms that are made of tokens in a row lie in the same order. -/
lemma inOrder_parts {parts : List (List Token × Form)} (hparts : ∀ part ∈ parts, Makes part.1 part.2)
    {start stop : Int} {rest : List Span}
    (h : Span.InOrder start stop ((parts.flatMap Prod.fst).map Token.span ++ rest)) :
    ∃ spans, (parts.map Prod.snd).map Form.span = spans.map some ∧
      ∃ middle, Span.InOrder start middle spans ∧ Span.InOrder middle stop rest := by
  induction parts generalizing start with
  | nil => exact ⟨[], rfl, start, le_refl start, h⟩
  | cons part parts ih =>
    rw [List.forall_mem_cons] at hparts
    obtain ⟨first, last, hfirst, hlast, hspan⟩ := hparts.1.span
    rw [List.flatMap_cons, List.map_append, List.append_assoc] at h
    obtain ⟨hstart, hends, hrest⟩ := Span.InOrder.hull hfirst hlast h
    obtain ⟨spans, hspans, middle, horder, hmiddle⟩ := ih hparts.2 hrest
    refine ⟨⟨first.start, last.stop⟩ :: spans, ?_, middle, ⟨hstart, hends, horder⟩, hmiddle⟩
    rw [List.map_cons, List.map_cons, List.map_cons, hspans, hspan]

/-- The elements of a form lie in its span, in order and without overlap, if its tokens are in order. -/
lemma Makes.elements_inOrder {ts : List Token} {f : Form} (h : Makes ts f) {start stop : Int}
    (horder : Span.InOrder start stop (ts.map Token.span)) {span : Span} (hspan : f.span = some span) :
    ∃ spans, f.elements.map Form.span = spans.map some ∧
      Span.InOrder span.start.offset span.stop.offset spans := by
  cases h with
  | @atom token value hatom =>
    cases hspan
    exact ⟨[], rfl, horder.2.1.le⟩
  | @compound first last opener parts hfirst hlast hparts =>
    cases hspan
    rw [List.map_cons, List.map_append] at horder
    obtain ⟨-, hopening, horder⟩ := horder
    obtain ⟨spans, hspans, middle, horder, hclosing⟩ := inOrder_parts hparts horder
    exact ⟨spans, hspans, horder.widen hopening.le (hclosing.1.trans hclosing.2.1.le)⟩
  | @marked token marker ts inner hmarker hinner =>
    obtain ⟨first, last, hfirst, hlast, hinnerSpan⟩ := hinner.span
    rw [Marker.wrap, hinnerSpan] at hspan
    cases hspan
    obtain ⟨-, hmark, horder⟩ := horder
    rw [← List.append_nil (ts.map Token.span)] at horder
    obtain ⟨hstart, hends, -⟩ := Span.InOrder.hull hfirst hlast horder
    refine ⟨[token.span, ⟨first.start, last.stop⟩], ?_, le_rfl, hmark, hstart, hends, le_rfl⟩
    rw [Marker.wrap, Form.elements, List.map_cons, List.map_cons, hinnerSpan]
    rfl

/-! ## The text of a span -/

/-- A token of a source stands in it with its text, in front of the text of the tokens behind it. -/
lemma exists_place {source : Text} {earlier later : List Token} {token : Token}
    (h : (tokens source).items = earlier ++ token :: later) : ∃ before behind,
      source = before ++ (token.raw ++ behind) ∧ token.span = (Position.origin.after before).span token.raw ∧
      Scans (token.raw ++ behind) token.lexeme token.raw behind ∧
      (tokensFrom token.span.stop behind).items = later := by
  obtain ⟨q, gap, behind, htakes, -, hspan, hscan, hitems⟩ := takes_in_front h
  obtain ⟨taken, rfl, rfl, -⟩ := htakes.cut
  refine ⟨taken ++ gap, behind, by rw [List.append_assoc], ?_, hscan, hitems⟩
  rw [hspan, Position.after_append]

/-- The tokens that make a form are taken off the text of its span, alone. -/
lemma exists_slice {source : Text} {earlier ts later : List Token} {f : Form}
    (h : (tokens source).items = earlier ++ (ts ++ later)) (hf : Makes ts f) :
    ∃ before taken behind q, source = before ++ (taken ++ behind) ∧ taken ≠ [] ∧
      f.span = some ((Position.origin.after before).span taken) ∧
      Takes (Position.origin.after before) taken ts q [] := by
  obtain ⟨first, last, hfirst, hlast, hspan⟩ := hf.span
  cases ts with
  | nil => cases hfirst
  | cons token ts =>
    obtain rfl : token.span = first := Option.some_inj.1 hfirst
    obtain ⟨before, behind, rfl, hplace, hscan, hitems⟩ := exists_place h
    obtain ⟨q, rest, hts⟩ := takes_of_items hitems
    have htakes : Takes (Position.origin.after before) ([] ++ (token.raw ++ behind)) (token :: ts) q rest :=
      .next .nil hplace hscan hts
    obtain ⟨taken, htext, hq, hcut⟩ := htakes.cut
    have hwhole := hcut [] (mayReplace_nil rest)
    rw [List.nil_append] at htext
    rw [List.append_nil] at hwhole
    refine ⟨before, taken, rest, q, by rw [htext], ?_, ?_, hwhole⟩
    · rintro rfl
      have horder := hwhole.inOrder
      rw [← List.append_nil (List.map Token.span _)] at horder
      obtain ⟨hstart, hends, -⟩ := Span.InOrder.hull hfirst hlast horder
      rw [htakes.stop hlast, hq, Position.after_nil] at hends
      exact absurd (hstart.trans_lt hends) (lt_irrefl _)
    · rw [hspan, htakes.stop hlast, hplace, hq]
      rfl

/-- A text whose tokens make a form is read as the form. -/
lemma forms_of_makes {p q : Position} {t : Text} {ts : List Token} {f : Form} (h : Takes p t ts q [])
    (hf : Makes ts f) : (forms t).items.map Form.bare = [f.bare] ∧ (forms t).ending = .ok () := by
  obtain ⟨ts', q', htakes, hcontent⟩ := h.elsewhere .origin
  have htokens : tokens t = Feed.prepend ts' (.done q') := by
    rw [tokens, htakes.tokensFrom, tokensFrom_nil]
  have hread : readForms (Feed.prepend ts (.done q)) = .next f (.done ()) := by
    rw [readForms_eq_run, hf.run]
    rfl
  have hmove : (forms t).move (fun _ => .origin) = Forms.move (fun _ => .origin) (.next f (.done ())) := by
    rw [forms, ← hread, htokens]
    exact readForms_move_eq (Feed.ending_prepend ts' (.done q')) (Feed.ending_prepend ts (.done q))
      (by simpa [Feed.items] using hcontent)
  refine ⟨items_of_move_eq hmove, ?_⟩
  have hending := ending_of_move_eq hmove
  cases hforms : (forms t).ending with
  | ok closing => rfl
  | error fault =>
    rw [hforms] at hending
    cases hending

lemma raw_of_marker {source : Text} {token : Token} {marker : Marker} (h : token ∈ (tokens source).items)
    (hmarker : token.lexeme = .marker marker) : token.raw = marker.text := by
  obtain ⟨t, rest, hscan⟩ := scanned_of_mem_tokens h
  rw [hmarker] at hscan
  exact (scans_iff.1 hscan).2.2.1

/-- Every form that a source has, up to its end or up to the first fault, and every form inside it has a span, which
covers some text of the source and knows its lines and columns. The spans of its elements lie in its own span, in
order and without overlap. The text of its span is read as the form alone, apart from places. The only exception is
the symbol that leads a marked form, which has the span of the marker. -/
theorem spans_are_slices {source : Text} {f g : Form} (hf : f ∈ (forms source).items) (hg : f.Contains g) :
    ∃ span, g.span = some span ∧ span.Placed source ∧
      (∃ spans, g.elements.map Form.span = spans.map some ∧
        Span.InOrder span.start.offset span.stop.offset spans) ∧
      (((forms (source.slice span.start span.stop)).items.map Form.bare = [g.bare] ∧
          (forms (source.slice span.start span.stop)).ending = .ok ()) ∨
        ∃ (marker : Marker) (inner : Form), g = .atom (.symbol marker.name) (some span) ∧
          source.slice span.start span.stop = marker.text ∧ f.Contains (marker.wrap span inner)) := by
  obtain ⟨earlier, ts, later, htokens, hmakes⟩ := makes_of_mem_readForms hf
  rcases hmakes.contains hg with ⟨us, ⟨front, back, rfl⟩, hus⟩ | ⟨token, htoken, marker, inner, hmarker, rfl, hwrap⟩
  · rw [List.append_assoc, List.append_assoc, ← List.append_assoc] at htokens
    obtain ⟨before, taken, behind, q, rfl, hne, hspan, htakes⟩ := exists_slice htokens hus
    refine ⟨_, hspan, placed_span before hne behind, hus.elements_inOrder htakes.inOrder hspan, .inl ?_⟩
    have hslice := slice_after before taken behind
    rw [Position.after_append] at hslice
    rw [Position.span, hslice]
    exact forms_of_makes htakes hus
  · obtain ⟨front, back, rfl⟩ := List.append_of_mem htoken
    rw [List.append_assoc, List.cons_append, ← List.append_assoc] at htokens
    have hraw := raw_of_marker (htokens ▸ List.mem_append_right _ List.mem_cons_self) hmarker
    obtain ⟨before, behind, rfl, hspan, hscan, -⟩ := exists_place htokens
    have hplaced := placed_span before hscan.raw_ne_nil behind
    rw [← hspan] at hplaced
    refine ⟨token.span, rfl, hplaced, ⟨[], rfl, hplaced.ordered.le⟩, .inr ⟨marker, inner, rfl, ?_, hwrap⟩⟩
    have hslice := slice_after before token.raw behind
    rw [Position.after_append] at hslice
    rw [hspan, Position.span, hslice, hraw]

/-- The vector behind a marker, in front of a bracket that closes nothing. -/
theorem spans_are_slices_marked :
    ∃ f g, (forms "'[])").items = [f] ∧ (forms "'[])").ending ≠ .ok () ∧ f.Contains g ∧
      g.span = some ⟨⟨1, 2, 1⟩, ⟨1, 4, 3⟩⟩ ∧
      (forms (Text.slice "'[])" ⟨1, 2, 1⟩ ⟨1, 4, 3⟩)).items.map Form.bare = [g.bare] := by
  have htokens : tokens "'[])" = Feed.prepend [⟨.marker .quote, ['\''], ⟨⟨1, 1, 0⟩, ⟨1, 2, 1⟩⟩⟩,
      ⟨.opening .square, ['['], ⟨⟨1, 2, 1⟩, ⟨1, 3, 2⟩⟩⟩, ⟨.closing .square, [']'], ⟨⟨1, 3, 2⟩, ⟨1, 4, 3⟩⟩⟩,
      ⟨.closing .paren, [')'], ⟨⟨1, 4, 3⟩, ⟨1, 5, 4⟩⟩⟩] (.done ⟨1, 5, 4⟩) := by cbv
  have hforms : forms "'[])" = .next (Marker.quote.wrap ⟨⟨1, 1, 0⟩, ⟨1, 2, 1⟩⟩
      (.compound .vector [] (some ⟨⟨1, 2, 1⟩, ⟨1, 4, 3⟩⟩)))
      (.failed (.located (.extraCloser [')']) ⟨⟨1, 4, 3⟩, ⟨1, 5, 4⟩⟩)) := by
    rw [forms, htokens, readForms_eq_run]
    rfl
  have hcontains : (Marker.quote.wrap ⟨⟨1, 1, 0⟩, ⟨1, 2, 1⟩⟩ (.compound .vector []
      (some ⟨⟨1, 2, 1⟩, ⟨1, 4, 3⟩⟩))).Contains (.compound .vector [] (some ⟨⟨1, 2, 1⟩, ⟨1, 4, 3⟩⟩)) :=
    .element (List.mem_cons_of_mem _ List.mem_cons_self) (.self _)
  have hitems := congrArg Feed.items hforms
  have hending := congrArg Feed.ending hforms
  refine ⟨_, _, hitems, fun h => ?_, hcontains, rfl, ?_⟩
  · cases hending.symm.trans h
  · have hmem := List.mem_of_mem_head? (Option.mem_def.2 (congrArg List.head? hitems))
    obtain ⟨span, hspan, -, -, hread⟩ := spans_are_slices hmem hcontains
    cases hspan
    rcases hread with ⟨hread, -⟩ | ⟨marker, inner, hatom, -⟩
    · exact hread
    · cases hatom

end Bilisp
