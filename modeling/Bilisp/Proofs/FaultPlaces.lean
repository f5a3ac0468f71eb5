import Bilisp.Proofs.ConversionFaults
import Bilisp.Proofs.ReadableForms
import Bilisp.Proofs.Tiling

/-!
# Where faults lie

Every diagnostic of a program points at a span of its source: the span covers some text, which begins with a
character that is seen, and its ends know their lines and columns (`marks_of_program`). The scanner flags a part of
the text from a token on, the reader points at tokens, and every form spans the text from its first token to its
last one.
-/

namespace Bilisp

/-- Whether a character that is seen stands behind a position. -/
def Text.VisibleAt (source : Text) (p : Position) : Prop :=
  ∃ c, source[p.offset.toNat]? = some c ∧ Bilisp.isSeparator c = false

/-- Whether a span covers some text of the source that begins with a character that is seen. -/
structure Span.Marks (source : Text) (span : Span) : Prop where
  placed : span.Placed source
  visible : source.VisibleAt span.start

/-- Whether a diagnostic points at some text of the source. -/
def Diagnostic.Marks (source : Text) (d : Diagnostic) : Prop := ∃ span, d.span = some span ∧ span.Marks source

/-- Whether a fault points at some text of the source, if it is a diagnostic. -/
def Fault.Marks (source : Text) (fault : Fault) : Prop := ∀ d, fault = .diagnostic d → d.Marks source

/-- Whether a form and the forms inside it span some text of the source. -/
def Form.Marked (source : Text) (f : Form) : Prop :=
  ∀ g, f.Contains g → ∃ span, g.span = some span ∧ span.Marks source

/-! ## Faults of the scanner -/

/-- What a scanner says of the text it flags: a string is not closed there, or the text, which is shown, is no
token. -/
inductive Cause.Flags (flagged : Text) : Cause → Prop
  | unclosed : Flags flagged (.unclosed ['"'])
  | invalid (reason : Text) : Flags flagged (.invalidToken flagged reason)

lemma flags_of_shortEscape {t lead flagged : Text} {cause : Cause} (h : shortEscape t = .broken lead flagged cause) :
    flagged.head? = some '\\' ∧ cause.Flags flagged := by
  unfold shortEscape at h
  dsimp only at h
  split at h <;> cases h
  exact ⟨rfl, .invalid _⟩

/-- What is flagged inside a string is an escape. -/
lemma flags_of_scanString {t lead flagged : Text} {cause : Cause} (h : scanString t = .broken lead flagged cause) :
    flagged.head? = some '\\' ∧ cause.Flags flagged := by
  have hbehind : ∀ {s : StringScan} {raw lead : Text} {c : Char}, s.behind raw c = .broken lead flagged cause →
      ∃ lead', s = .broken lead' flagged cause := by
    intro s raw lead c hs
    cases s <;> cases hs
    exact ⟨_, rfl⟩
  fun_induction scanString t generalizing lead with
  | case1 => cases h
  | case2 => cases h
  | case3 =>
    cases h
    exact ⟨rfl, .unclosed⟩
  | case4 a b c d more _ ih => exact ih (hbehind h).choose_spec
  | case5 => exact flags_of_shortEscape h
  | case6 => exact flags_of_shortEscape h
  | case7 _ _ _ _ _ ih => exact ih (hbehind h).choose_spec
  | case8 =>
    cases h
    exact ⟨rfl, .invalid _⟩
  | case9 _ _ _ _ _ _ ih => exact ih (hbehind h).choose_spec

/-- A scanner flags the text from its first character on, or an escape inside a string. -/
lemma flags_of_scanToken {c : Char} {t lead flagged : Text} {cause : Cause}
    (h : scanToken c t = .rejected lead flagged cause) :
    (lead = [] ∨ flagged.head? = some '\\') ∧ cause.Flags flagged := by
  have hnumber : ∀ first t, scanNumber first t = .rejected lead flagged cause → lead = [] ∧ cause.Flags flagged :=
    fun first t hscan => by
      rw [scanNumber] at hscan
      split at hscan <;> cases hscan
      exact ⟨rfl, .invalid _⟩
  have hsymbol : ∀ c t, scanSymbol c t = .rejected lead flagged cause → lead = [] ∧ cause.Flags flagged :=
    fun c t hscan => by
      rw [scanSymbol] at hscan
      split at hscan <;> cases hscan
      exact ⟨rfl, .invalid _⟩
  unfold scanToken at h
  split at h
  case h_9 => split at h <;> cases h
  case h_10 =>
    unfold scanHash at h
    split at h
    · cases h
    · exact (hnumber _ _ h).imp_left .inl
    · cases h
      exact ⟨.inl rfl, .invalid _⟩
  case h_11 =>
    rw [scanStringToken] at h
    split at h
    · cases h
    · cases h
      exact ⟨.inl rfl, .unclosed⟩
    next hstring =>
      cases h
      exact (flags_of_scanString hstring).imp_left .inr
    · cases h
  case h_12 =>
    unfold scanCharacter at h
    dsimp only at h
    split at h
    · cases h
      exact ⟨.inl rfl, .invalid _⟩
    · split at h <;> cases h
      exact ⟨.inl rfl, .invalid _⟩
  case h_13 =>
    rcases scanColon_cases t with ⟨-, hscan⟩ | ⟨-, hscan⟩
    · exact (hsymbol _ _ (hscan.symm.trans h)).imp_left .inl
    · rw [hscan] at h
      split at h <;> cases h
      exact ⟨.inl rfl, .invalid _⟩
  case h_14 =>
    split at h
    · exact (hnumber _ _ h).imp_left .inl
    · exact (hsymbol _ _ h).imp_left .inl
  all_goals cases h

/-- The text that a scanner flags begins with a character that is seen. -/
lemma head_of_scanToken {c : Char} {t lead flagged : Text} {cause : Cause} (hsep : isSeparator c = false)
    (h : scanToken c t = .rejected lead flagged cause) : ∃ d ∈ flagged.head?, isSeparator d = false := by
  rcases (flags_of_scanToken h).1 with rfl | hhead
  · obtain ⟨⟨rest, hrest⟩, hne, -⟩ := faultsIn_scanToken h
    obtain ⟨d, more, rfl⟩ := List.exists_cons_of_ne_nil hne
    cases hrest
    exact ⟨c, rfl, hsep⟩
  · exact ⟨_, hhead, by decide⟩

/-! ## Tokens -/

lemma visibleAt_after {before t : Text} {c : Char} (hc : t.head? = some c) (hsep : isSeparator c = false) :
    Text.VisibleAt (before ++ t) (Position.origin.after before) := by
  refine ⟨c, ?_, hsep⟩
  rw [offset_after_origin, Int.toNat_natCast, List.getElem?_append_right (Nat.le_refl _), Nat.sub_self,
    ← List.head?_eq_getElem?, hc]

/-- Whether tokens begin with characters that are seen, as does the text at fault behind them. -/
def Tokens.Visible (source : Text) (feed : Tokens) : Prop :=
  (∀ token ∈ feed.items, source.VisibleAt token.span.start) ∧
    ∀ d, feed.ending = .error (.diagnostic d) → ∃ span, d.span = some span ∧ source.VisibleAt span.start

lemma visible_done (source : Text) (p : Position) : Tokens.Visible source (.done p) :=
  ⟨fun _ htoken => absurd htoken List.not_mem_nil, fun _ hd => by cases hd⟩

lemma visible_failed {source : Text} {fault : Fault}
    (h : ∀ d, fault = .diagnostic d → ∃ span, d.span = some span ∧ source.VisibleAt span.start) :
    Tokens.Visible source (.failed fault) :=
  ⟨fun _ htoken => absurd htoken List.not_mem_nil, fun d hd => h d (Except.error.inj hd)⟩

lemma visible_tokensFrom (before t : Text) :
    Tokens.Visible (before ++ t) (tokensFrom (Position.origin.after before) t) := by
  induction hlength : t.length using Nat.strongRecOn generalizing before t with
  | _ n ih =>
    subst hlength
    have hsplit := splitIgnored_append false t
    rw [tokensFrom_eq]
    obtain ⟨ignored, hignored⟩ : ∃ ignored, (splitIgnored false t).1 = ignored := ⟨_, rfl⟩
    obtain ⟨behind, hbehind⟩ : ∃ behind, (splitIgnored false t).2 = behind := ⟨_, rfl⟩
    rw [hignored, hbehind] at hsplit
    rw [hignored, hbehind, ← Position.after_append, ← hsplit, ← List.append_assoc]
    cases behind with
    | nil => exact visible_done _ _
    | cons c rest =>
      obtain ⟨hsep, -⟩ := splitIgnored_front hbehind
      rw [tokensAt]
      cases hscan : scanToken c rest with
      | token lexeme raw behind =>
        obtain ⟨htaken, hpositive⟩ := scanToken_split hscan
        have hshorter : behind.length < t.length := by
          have htext := congrArg List.length hsplit
          rw [← htaken, List.length_append, List.length_append] at htext
          omega
        obtain ⟨htokens, hending⟩ := ih behind.length hshorter (before ++ ignored ++ raw) behind rfl
        rw [List.append_assoc _ raw, htaken, Position.after_append] at htokens hending
        refine ⟨List.forall_mem_cons.2 ⟨visibleAt_after rfl hsep, htokens⟩, hending⟩
      | rejected lead flagged cause =>
        refine visible_failed fun d hd => ?_
        cases hd
        obtain ⟨⟨rest', hrest⟩, -, -⟩ := faultsIn_scanToken hscan
        obtain ⟨d, hd, hdsep⟩ := head_of_scanToken hsep hscan
        refine ⟨_, rfl, ?_⟩
        rw [← hrest, ← Position.after_append, ← List.append_assoc]
        refine visibleAt_after ?_ hdsep
        rw [List.head?_append, hd]
        rfl
      | pastEnd => exact visible_failed (by simp)

/-! ## Forms -/

lemma Form.Marked.span {source : Text} {f : Form} (h : f.Marked source) :
    ∃ span, f.span = some span ∧ span.Marks source := h f (.self f)

lemma marked_atom {source : Text} {value : Atom} {span : Span} (h : span.Marks source) :
    (Form.atom value (some span)).Marked source := by
  intro g hg
  cases hg
  exact ⟨span, rfl, h⟩

lemma marked_compound {source : Text} {shape : Shape} {elements : List Form} {span : Span} (h : span.Marks source)
    (helements : ∀ f ∈ elements, f.Marked source) : (Form.compound shape elements (some span)).Marked source := by
  intro g hg
  cases hg with
  | self => exact ⟨span, rfl, h⟩
  | element hf hg => exact helements _ hf g hg

/-- A span from the beginning of one text to the end of another one behind it. -/
lemma Span.Marks.join {source : Text} {first last : Span} (hfirst : first.Marks source) (hlast : last.Placed source)
    (horder : first.start.offset < last.stop.offset) : Span.Marks source ⟨first.start, last.stop⟩ where
  placed := ⟨hfirst.placed.start, hlast.stop, horder, hlast.inside⟩
  visible := hfirst.visible

/-! ## Steps of the machine -/

/-- The elements that an open bracket waits with. -/
def Pending.elements : Pending → List Form
  | .bracket _ _ elements => elements
  | .mark _ _ => []

/-- Whether something on the stack was read in front of a position, from text that the source holds. -/
structure Pending.MarkedBefore (source : Text) (here : Position) (top : Pending) : Prop where
  marks : top.span.Marks source
  before : top.span.start.offset < here.offset
  elements : ∀ f ∈ top.elements, f.Marked source

lemma Pending.MarkedBefore.mono {source : Text} {here there : Position} {top : Pending}
    (h : top.MarkedBefore source here) (hle : here.offset ≤ there.offset) : top.MarkedBefore source there :=
  ⟨h.marks, h.before.trans_le hle, h.elements⟩

/-- A form that ends at a position is attached to what was read in front of the position. -/
lemma marked_attach {source : Text} {f : Form} {start stop : Position} {stack : List Pending}
    (hf : f.Marked source) (hspan : f.span = some ⟨start, stop⟩)
    (hstack : ∀ top ∈ stack, top.MarkedBefore source stop) :
    (∀ g ∈ (attach f stack).1, g.Marked source) ∧ ∀ top ∈ (attach f stack).2, top.MarkedBefore source stop := by
  induction stack generalizing f start with
  | nil =>
    refine ⟨fun g hg => ?_, hstack⟩
    cases hg
    exact hf
  | cons top below ih =>
    obtain ⟨htop, hbelow⟩ := List.forall_mem_cons.1 hstack
    cases top with
    | mark marker place =>
      obtain ⟨span, hspan', hmarks⟩ := hf.span
      obtain rfl : span = ⟨start, stop⟩ := Option.some.inj (hspan'.symm.trans hspan)
      have hwhole : Span.Marks source ⟨place.start, stop⟩ := htop.marks.join hmarks.placed htop.before
      have hwrap : marker.wrap place f =
          .compound .list [.atom (.symbol marker.name) (some place), f] (some ⟨place.start, stop⟩) := by
        rw [Marker.wrap, hspan, Option.getD_some]
      rw [attach, hwrap]
      refine ih (marked_compound hwhole ?_) rfl hbelow
      exact List.forall_mem_cons.2 ⟨marked_atom htop.marks, List.forall_mem_singleton.2 hf⟩
    | bracket opener place elements =>
      refine ⟨nofun, List.forall_mem_cons.2 ⟨⟨htop.marks, htop.before, ?_⟩, hbelow⟩⟩
      exact List.forall_mem_cons.2 ⟨hf, htop.elements⟩

/-- One token keeps the forms on the stack marked, and so is the form that it completes. -/
lemma marked_pushToken {source : Text} {here : Position} {token : Token} {stack : List Pending}
    {outcome : Option Form × List Pending} (htoken : token.span.Marks source)
    (horder : here.offset ≤ token.span.start.offset) (hstack : ∀ top ∈ stack, top.MarkedBefore source here)
    (h : pushToken token stack = .ok outcome) :
    (∀ f ∈ outcome.1, f.Marked source) ∧ ∀ top ∈ outcome.2, top.MarkedBefore source token.span.stop := by
  have hordered := htoken.placed.ordered
  have hkept : ∀ top ∈ stack, top.MarkedBefore source token.span.stop := fun top htop =>
    (hstack top htop).mono (horder.trans hordered.le)
  have hpending : ∀ top : Pending, top.span = token.span → top.elements = [] →
      ∀ top' ∈ top :: stack, top'.MarkedBefore source token.span.stop := by
    intro top hspan helements
    refine List.forall_mem_cons.2 ⟨⟨hspan ▸ htoken, hspan ▸ hordered, ?_⟩, hkept⟩
    rw [helements]
    exact fun f hf => absurd hf List.not_mem_nil
  rcases pushToken_cases h with ⟨opener, -, rfl⟩ | ⟨marker, -, rfl⟩ | ⟨value, -, rfl⟩ |
    ⟨opener, place, elements, below, -, rfl, rfl⟩
  · exact ⟨by simp, hpending _ rfl rfl⟩
  · exact ⟨by simp, hpending _ rfl rfl⟩
  · exact marked_attach (marked_atom htoken) rfl hkept
  · obtain ⟨htop, hbelow⟩ := List.forall_mem_cons.1 hkept
    have hwhole : Span.Marks source ⟨place.start, token.span.stop⟩ := htop.marks.join htoken.placed htop.before
    refine marked_attach (marked_compound hwhole ?_) rfl hbelow
    exact fun f hf => htop.elements f (List.mem_reverse.1 hf)

/-- The machine reads the tokens of a source with a stack of what was read in front of them. -/
def MarksAll (source : Text) (stack : List Pending) (feed : Tokens) : Prop :=
  ∃ here, Tiles source here feed ∧ Tokens.Visible source feed ∧ ∀ top ∈ stack, top.MarkedBefore source here

lemma marks_runInvariant (source : Text) :
    RunInvariant (MarksAll source) (Form.Marked source) (Fault.Marks source) where
  done h fault hfault := by
    obtain ⟨here, -, -, hstack⟩ := h
    obtain ⟨cause, top, htop, rfl⟩ := located_of_endOfTokens hfault
    intro d hd
    cases hd
    exact ⟨_, rfl, (hstack top htop).marks⟩
  failed h := by
    obtain ⟨here, htiles, hvisible, -⟩ := h
    rintro d rfl
    cases htiles with
    | failed hfault =>
      obtain ⟨-, span, hspan, hplaced, -⟩ := hfault d rfl
      obtain ⟨span', hspan', hseen⟩ := hvisible.2 d rfl
      obtain rfl : span' = span := Option.some.inj (hspan'.symm.trans hspan)
      exact ⟨span', hspan, hplaced, hseen⟩
  refused h hpush := by
    obtain ⟨here, htiles, hvisible, hstack⟩ := h
    obtain ⟨cause, span, rfl, hplace⟩ := located_of_pushToken hpush
    intro d hd
    cases hd
    refine ⟨span, rfl, ?_⟩
    rcases hplace with rfl | ⟨top, htop, rfl⟩
    · cases htiles with
      | next _ _ hplaced => exact ⟨hplaced, hvisible.1 _ List.mem_cons_self⟩
    · exact (hstack top htop).marks
  taken h hpush := by
    obtain ⟨here, htiles, hvisible, hstack⟩ := h
    cases htiles with
    | next _ horder hplaced _ _ hbehind =>
      obtain ⟨hseen, hbehindSeen⟩ := List.forall_mem_cons.1 hvisible.1
      obtain ⟨hdone, hstack'⟩ := marked_pushToken ⟨hplaced, hseen⟩ horder hstack hpush
      exact ⟨hdone, _, hbehind, ⟨hbehindSeen, hvisible.2⟩, hstack'⟩

/-! ## Programs -/

/-- Everything that is read from a source spans some text of it, and so does the text that the reader refuses. -/
lemma marks_forms (source : Text) :
    (∀ f ∈ (forms source).items, f.Marked source) ∧ FailsAs (Fault.Marks source) (forms source).ending := by
  have hmarks : MarksAll source [] (tokens source) :=
    ⟨.origin, tiles_tokensFrom [] source, visible_tokensFrom [] source, nofun⟩
  obtain ⟨hforms, hfaults⟩ := (marks_runInvariant source).readForms hmarks
  refine ⟨hforms, ?_⟩
  rw [forms]
  cases hending : (readForms (tokens source)).ending with
  | ok closing => trivial
  | error fault => exact hfaults fault hending

lemma marks_of_arisesIn {source : Text} {f : Form} {fault : Fault} (hf : f.Marked source) (h : fault.ArisesIn f) :
    fault.Marks source := by
  intro d hd
  cases h with
  | structureOf kind problem hg =>
    cases hd
    exact hf _ hg
  | countOf kind expected found hg =>
    cases hd
    exact hf _ hg
  | literal hg he => cases hd

/-- The diagnostic of a program points at some text of its source. -/
theorem marks_of_program {source : Text} {d : Diagnostic} (h : program source = .error (.diagnostic d)) :
    d.Marks source := by
  obtain ⟨hforms, hending⟩ := marks_forms source
  have hprogram : FailsAs (Fault.Marks source) (program source) := failsAs_collect hending fun f hf =>
    (convertsAs fun fault hfault => marks_of_arisesIn (hforms f hf) hfault).node true
  exact hprogram.of_error h d rfl

end Bilisp
