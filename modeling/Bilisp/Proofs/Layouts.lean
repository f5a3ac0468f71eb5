import Bilisp.Proofs.ReadableForms
import Bilisp.Proofs.TakenTokens

/-!
# Layouts

The tokens of a source may be laid out anew, with other gaps between them and around them. They stay the same tokens,
since every gap ends the token in front of it, and forms and programs depend on the places of tokens only in the
places that they show (`layouts_read_alike`).
-/

namespace Bilisp

/-! ## Texts with gaps behind them -/

/-- Whether a text is made of texts in turn, each with a gap behind it, which is empty behind the last one only. -/
inductive Text.Spaces : List Text → Text → Prop
  | nil : Spaces [] []
  | cons {raw gap t : Text} {raws : List Text} (hgap : IsGap false gap) (hne : raws ≠ [] → gap ≠ [])
    (ht : Spaces raws t) : Spaces (raw :: raws) (raw ++ (gap ++ t))

/-- Whether a text is made of texts in turn, with gaps between them and around them. -/
def Text.LaysOut (t : Text) (raws : List Text) : Prop :=
  ∃ front body, t = front ++ body ∧ IsGap false front ∧ Text.Spaces raws body

lemma scanned_of_mem_tokens {source : Text} {token : Token} (h : token ∈ (tokens source).items) : token.Scanned :=
  scans_of_mem_tokensFrom h

/-- Scanned tokens are found again in their texts, wherever those begin and whichever gaps stand behind them. -/
lemma tokensFrom_spaces {ts : List Token} (hts : ∀ token ∈ ts, token.Scanned) {t : Text}
    (h : Text.Spaces (ts.map Token.raw) t) (p : Position) :
    (∃ stop, (tokensFrom p t).ending = .ok stop) ∧
      (tokensFrom p t).items.map Token.content = ts.map Token.content := by
  induction ts generalizing t p with
  | nil =>
    cases h
    rw [tokensFrom_nil]
    exact ⟨⟨p, rfl⟩, rfl⟩
  | cons token ts ih =>
    rw [List.forall_mem_cons] at hts
    rw [List.map_cons] at h
    cases h with
    | @cons raw gap t raws hgap hne ht =>
      have hends : ∀ rest, Text.MayReplace (gap ++ t) rest := by
        intro rest
        by_cases hgap' : gap = []
        · obtain rfl : ts = [] := by
            by_contra hnil
            exact hne (by simpa using hnil) hgap'
          cases ht
          rw [hgap']
          exact mayReplace_nil rest
        · exact hgap.mayReplace hgap' t rest
      obtain ⟨t', rest, hscans⟩ := hts.1
      have hscan := tokensFrom_of_scans (hscans.before (hends rest)) p
      obtain ⟨⟨stop, hstop⟩, hitems⟩ := ih hts.2 ht (((p.after token.raw)).after gap)
      rw [hscan, hgap.tokensFrom_append]
      refine ⟨⟨stop, hstop⟩, ?_⟩
      rw [Feed.items, List.map_cons, List.map_cons, hitems]
      rfl

/-! ## Readings of the same tokens -/

/-- The fault without the place it flags and without the places of the forms it shows. -/
def Fault.bare (fault : Fault) : Fault := fault.mapSpan fun _ => none

lemma items_map {α α' β β' : Type} (onItem : α → α') (onClosing : β → β') (onFault : Fault → Fault)
    (feed : Feed α β) : (feed.map onItem onClosing onFault).items = feed.items.map onItem := by
  induction feed with
  | done closing => rfl
  | failed fault => rfl
  | next item rest ih => rw [Feed.map, Feed.items, Feed.items, ih, List.map_cons]

lemma ending_map {α α' β β' : Type} (onItem : α → α') (onClosing : β → β') (onFault : Fault → Fault)
    (feed : Feed α β) :
    (feed.map onItem onClosing onFault).ending = (feed.ending.map onClosing).mapError onFault := by
  induction feed with
  | done closing => rfl
  | failed fault => rfl
  | next item rest ih => exact ih

lemma bare_fault_mapSpan (φ : Option Span → Option Span) (fault : Fault) : (fault.mapSpan φ).bare = fault.bare := by
  cases fault with
  | diagnostic d =>
    obtain ⟨-, -, hcause⟩ := cause_mapSpan φ d.cause
    change Fault.diagnostic ⟨(d.cause.mapSpan φ).mapSpan (fun _ => none), none⟩ = _
    rw [hcause]
    rfl
  | pastEnd => rfl
  | literal e => rfl

lemma mapError_bare_mapSpan {α : Type} (φ : Option Span → Option Span) (x : Except Fault α) :
    (x.mapError (Fault.mapSpan φ)).mapError Fault.bare = x.mapError Fault.bare := by
  cases x with
  | ok a => rfl
  | error fault => exact congrArg Except.error (bare_fault_mapSpan φ fault)

/-- Tokens that differ only in their places are the same when all places are forgotten. -/
lemma tokens_move_eq {feed feed' : Tokens} {stop stop' : Position} (h : feed.ending = .ok stop)
    (h' : feed'.ending = .ok stop') (hcontent : feed.items.map Token.content = feed'.items.map Token.content) :
    feed.move (fun _ => .origin) = feed'.move (fun _ => .origin) := by
  induction feed generalizing feed' with
  | failed fault => cases h
  | done closing =>
    cases feed' with
    | failed fault => cases h'
    | done closing' => rfl
    | next token' behind' => cases hcontent
  | next token behind ih =>
    cases feed' with
    | failed fault => cases h'
    | done closing' => cases hcontent
    | next token' behind' =>
      obtain ⟨htoken, hbehind⟩ := List.cons.inj hcontent
      obtain ⟨hlexeme, hraw⟩ := Prod.mk.inj htoken
      have hrest := @ih behind' h h' hbehind
      simp only [Tokens.move, Feed.map, Token.move, Span.move, hlexeme, hraw] at hrest ⊢
      rw [hrest]

/-- Tokens that differ only in their places are read as forms that differ only in their places, up to a fault that
differs only in its places. -/
lemma readForms_move_eq {feed feed' : Tokens} {stop stop' : Position} (h : feed.ending = .ok stop)
    (h' : feed'.ending = .ok stop') (hcontent : feed.items.map Token.content = feed'.items.map Token.content) :
    (readForms feed).move (fun _ => .origin) = (readForms feed').move (fun _ => .origin) := by
  have hrun := run_move (π := fun _ => .origin) [] feed
  have hrun' := run_move (π := fun _ => .origin) [] feed'
  rw [List.map_nil] at hrun hrun'
  rw [readForms_eq_run, readForms_eq_run, ← hrun, ← hrun', tokens_move_eq h h' hcontent]

lemma items_of_move_eq {π : Position → Position} {feed feed' : Forms} (h : feed.move π = feed'.move π) :
    feed.items.map Form.bare = feed'.items.map Form.bare := by
  have hitems := congrArg (fun feed => (Feed.items feed).map Form.bare) h
  have hbare : Form.bare ∘ Form.move π = Form.bare := funext fun f => bare_mapSpan _ f
  simpa only [items_map, List.map_map, hbare] using hitems

lemma ending_of_move_eq {π : Position → Position} {feed feed' : Forms} (h : feed.move π = feed'.move π) :
    feed.ending.mapError Fault.bare = feed'.ending.mapError Fault.bare := by
  have hending := congrArg (fun feed => (Feed.ending feed).mapError Fault.bare) h
  have hid : ∀ x : Except Fault Unit, x.map id = x := fun x => by cases x <;> rfl
  simpa only [ending_map, hid, mapError_bare_mapSpan] using hending

lemma collect_of_move_eq {π : Position → Position} {feed feed' : Forms} (h : feed.move π = feed'.move π)
    (top : Bool) : (feed.collect (Form.toNode top)).mapError Fault.bare =
      (feed'.collect (Form.toNode top)).mapError Fault.bare := by
  have hcollect := congrArg (fun feed => (Feed.collect (Form.toNode top) feed).mapError Fault.bare) h
  simpa only [collect_move, mapError_bare_mapSpan] using hcollect

/-! ## Layouts of a source -/

/-- If the tokens of a source, which can be scanned to its end, are laid out anew with any gaps, then the text can be
scanned to its end, and its tokens have the same lexemes and texts in the same order. So, apart from places, its forms
are the same up to the end or up to the same fault, and the nodes of its program are the same or it has the same
fault. -/
theorem layouts_read_alike {source text : Text} {stop : Position} (h : (tokens source).ending = .ok stop)
    (hlayout : text.LaysOut ((tokens source).items.map Token.raw)) :
    (∃ stop', (tokens text).ending = .ok stop') ∧
    (tokens text).items.map Token.content = (tokens source).items.map Token.content ∧
    (forms text).items.map Form.bare = (forms source).items.map Form.bare ∧
    (forms text).ending.mapError Fault.bare = (forms source).ending.mapError Fault.bare ∧
    (program text).mapError Fault.bare = (program source).mapError Fault.bare := by
  obtain ⟨front, body, rfl, hfront, hbody⟩ := hlayout
  have hscanned : ∀ token ∈ (tokens source).items, token.Scanned := fun token => scanned_of_mem_tokens
  obtain ⟨⟨stop', hstop⟩, hcontent⟩ := tokensFrom_spaces hscanned hbody (Position.origin.after front)
  rw [← hfront.tokensFrom_append] at hstop hcontent
  have hmove := readForms_move_eq hstop h hcontent
  exact ⟨⟨stop', hstop⟩, hcontent, items_of_move_eq hmove, ending_of_move_eq hmove, collect_of_move_eq hmove true⟩

/-- A comment may begin behind an unquoting mark, where it keeps the two characters of the mark of splicing apart, while
a semicolon behind a backslash begins none. -/
theorem layouts_read_alike_unquoted :
    (tokens "~(\\;)").ending = .ok ⟨1, 6, 5⟩ ∧
      Text.LaysOut ",~;@\n( \\;,)" ((tokens "~(\\;)").items.map Token.raw) ∧
      (tokens ",~;@\n( \\;,)").items.map Token.content = (tokens "~(\\;)").items.map Token.content := by
  obtain ⟨hstop, hraws⟩ : (tokens "~(\\;)").ending = .ok ⟨1, 6, 5⟩ ∧
      (tokens "~(\\;)").items.map Token.raw = [['~'], ['('], ['\\', ';'], [')']] := by
    constructor
    · cbv
    · cbv
  have hcomma : IsGap false [','] := .separator (by decide) .nil
  have hblank : IsGap false [' '] := .separator (by decide) .nil
  have hcomment : IsGap false [';', '@', '\n'] := @IsGap.comment false ['@'] [] (by decide) .nil
  have hspaces : Text.Spaces [['~'], ['('], ['\\', ';'], [')']] _ :=
    .cons hcomment (fun _ => List.cons_ne_nil _ _) (.cons hblank (fun _ => List.cons_ne_nil _ _)
      (.cons hcomma (fun _ => List.cons_ne_nil _ _) (.cons .nil (fun h => absurd rfl h) .nil)))
  have hlayout : Text.LaysOut ",~;@\n( \\;,)" ((tokens "~(\\;)").items.map Token.raw) := by
    rw [hraws]
    exact ⟨[','], _, by decide, hcomma, hspaces⟩
  exact ⟨hstop, hlayout, (layouts_read_alike hstop hlayout).2.1⟩

end Bilisp
