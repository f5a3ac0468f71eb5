import Bilisp.Diagnostic.Message
import Bilisp.Proofs.Spans
import Bilisp.Proofs.StackMachine
import Bilisp.Proofs.Tiling
import Bilisp.Source

/-!
# Sources one behind the other

A source that can be read, followed by a line feed and another source, is read as the two programs in turn
(`program_append_line`). A line feed ends every token, so the tokens of the first source stay as they are; the
machine that reads them stands on the empty stack when they end, so it reads the second source as from the
beginning, only with all positions moved. Moving positions goes through every layer.
-/

namespace Bilisp

/-! ## Text behind a line feed -/

section

variable (q : Text)

lemma takeWhile_append_line {keep : Char → Bool} (hline : keep '\n' = false) (t : Text) :
    (t ++ '\n' :: q).takeWhile keep = t.takeWhile keep ∧
      (t ++ '\n' :: q).dropWhile keep = t.dropWhile keep ++ '\n' :: q := by
  induction t with
  | nil => simp [hline]
  | cons c t ih =>
    cases hc : keep c with
    | true => simpa [hc] using ih
    | false => simp [hc]

@[simp] lemma atomPart_append_line (t : Text) : atomPart (t ++ '\n' :: q) = atomPart t :=
  (takeWhile_append_line q (by decide) t).1

@[simp] lemma behindAtom_append_line (t : Text) : behindAtom (t ++ '\n' :: q) = behindAtom t ++ '\n' :: q :=
  (takeWhile_append_line q (by decide) t).2

lemma any_head?_append_line {p : Char → Bool} (hline : p '\n' = false) (t : Text) :
    (t ++ '\n' :: q).head?.any p = t.head?.any p := by
  cases t with
  | nil => simpa using hline
  | cons c t => rfl

/-- A scan of a text with more text behind it, which a token leaves alone. -/
def Scan.followedBy (more : Text) : Scan → Scan
  | .token lexeme raw rest => .token lexeme raw (rest ++ more)
  | .rejected lead flagged cause => .rejected lead flagged cause
  | .pastEnd => .pastEnd

lemma scanNumber_append_line (lead t : Text) :
    scanNumber lead (t ++ '\n' :: q) = (scanNumber lead t).followedBy ('\n' :: q) := by
  simp only [scanNumber, atomPart_append_line, behindAtom_append_line]
  split <;> rfl

lemma scanSymbol_append_line (c : Char) (t : Text) :
    scanSymbol c (t ++ '\n' :: q) = (scanSymbol c t).followedBy ('\n' :: q) := by
  simp only [scanSymbol, atomPart_append_line, behindAtom_append_line]
  split <;> rfl

lemma scanColon_append_line (t : Text) :
    scanColon (t ++ '\n' :: q) = (scanColon t).followedBy ('\n' :: q) := by
  simp only [scanColon, atomPart_append_line, behindAtom_append_line, scanSymbol_append_line]
  split
  · rfl
  · rfl
  · split <;> rfl

lemma scanCharacter_append_line (c : Char) (t : Text) :
    scanCharacter (c :: t ++ '\n' :: q) = (scanCharacter (c :: t)).followedBy ('\n' :: q) := by
  have hline : isAlphanumeric '\n' = false := by decide
  obtain ⟨htake, hdrop⟩ := takeWhile_append_line q hline t
  simp only [scanCharacter, List.cons_append, htake, hdrop]
  split <;> rfl

lemma scanHash_append_line (t : Text) :
    scanHash (t ++ '\n' :: q) = (scanHash t).followedBy ('\n' :: q) := by
  have hother : ∀ {u : Text}, (∀ v, u ≠ '\x7b' :: v) → (∀ v, u ≠ '#' :: v) →
      scanHash u = .invalid ('#' :: atomPart u) "unsupported dispatch macro" := by
    intro u hbrace hhash
    rw [scanHash]
    · exact hbrace
    · exact hhash
  match t with
  | [] => exact hother nofun nofun
  | c :: t =>
    by_cases hbrace : c = '\x7b'
    · subst hbrace
      rfl
    · by_cases hhash : c = '#'
      · subst hhash
        exact scanNumber_append_line q ['#', '#'] t
      · rw [hother (by simp [hbrace]) (by simp [hhash]), hother (by simp [hbrace]) (by simp [hhash]),
          atomPart_append_line]
        rfl

omit q in
lemma StringScan.closed_of_behind {s s' : StringScan} {lead value raw rest more : Text} {c : Char}
    (h : s.behind lead c = .closed value raw rest)
    (ih : ∀ {value raw rest}, s = .closed value raw rest → s' = .closed value raw (rest ++ more)) :
    s'.behind lead c = .closed value raw (rest ++ more) := by
  cases s <;> simp only [StringScan.behind, StringScan.closed.injEq, reduceCtorEq] at h
  obtain ⟨rfl, rfl, rfl⟩ := h
  rw [ih rfl, StringScan.behind]

/-- A string that is closed is not affected by what follows it. -/
lemma scanString_append {t value raw rest : Text} (more : Text) (h : scanString t = .closed value raw rest) :
    scanString (t ++ more) = .closed value raw (rest ++ more) := by
  fun_induction scanString t generalizing value raw rest with
  | case1 => cases h
  | case2 =>
    cases h
    rfl
  | case3 => cases h
  | case4 a b c d tail hdigits ih =>
    rw [show '\\' :: 'u' :: a :: b :: c :: d :: tail ++ more =
      '\\' :: 'u' :: a :: b :: c :: d :: (tail ++ more) from rfl, scanString, if_pos hdigits]
    exact StringScan.closed_of_behind h ih
  | case5 => exact absurd h (shortEscape_ne_closed _ _ _ _)
  | case6 => exact absurd h (shortEscape_ne_closed _ _ _ _)
  | case7 c tail hu character hescape ih =>
    rw [List.cons_append, List.cons_append, scanString, hescape]
    · exact StringScan.closed_of_behind h ih
    · exact hu
  | case8 => cases h
  | case9 c tail hquote hlast hdigits hescape ih =>
    have hslash : c ≠ '\\' := by
      rintro rfl
      cases tail with
      | nil => exact hlast rfl rfl
      | cons d tail => exact hescape d tail rfl rfl
    rw [List.cons_append, scanString]
    · exact StringScan.closed_of_behind h ih
    · exact hquote
    · exact fun hc => absurd hc hslash
    · exact fun _ hc => absurd hc hslash
    · exact fun _ _ hc => absurd hc hslash

lemma scanStringToken_append {t raw rest : Text} {l : Lexeme} (more : Text)
    (h : scanStringToken t = .token l raw rest) : scanStringToken (t ++ more) = .token l raw (rest ++ more) := by
  simp only [scanStringToken] at h
  split at h <;> simp only [Scan.token.injEq, reduceCtorEq] at h
  next hs =>
    obtain ⟨rfl, rfl, rfl⟩ := h
    rw [scanStringToken, scanString_append more hs]

lemma scanTilde_append_line (t : Text) :
    scanToken '~' (t ++ '\n' :: q) = (scanToken '~' t).followedBy ('\n' :: q) := by
  have hother : ∀ {u : Text}, (∀ v, u ≠ '@' :: v) → scanToken '~' u = .token (.marker .unquote) ['~'] u := by
    intro u hu
    simp only [scanToken]
  match t with
  | [] => exact hother nofun
  | c :: t =>
    by_cases hc : c = '@'
    · subst hc
      rfl
    · rw [hother (by simp [hc]), hother (by simp [hc])]
      rfl

/-- A token stays as it is when a line feed follows the text that it begins. -/
lemma scanToken_append_line {c : Char} {t raw rest : Text} {l : Lexeme} (h : scanToken c t = .token l raw rest) :
    scanToken c (t ++ '\n' :: q) = .token l raw (rest ++ '\n' :: q) := by
  have hscan : ∀ {s s' : Scan}, s' = s.followedBy ('\n' :: q) → s = .token l raw rest →
      s' = .token l raw (rest ++ '\n' :: q) := by
    rintro s s' rfl rfl
    rfl
  unfold scanToken at h ⊢
  split at h
  case h_9 =>
    exact hscan (scanTilde_append_line q t) h
  case h_10 => exact hscan (scanHash_append_line q t) h
  case h_11 => exact scanStringToken_append _ h
  case h_12 =>
    cases t with
    | nil => cases h
    | cons d t => exact hscan (scanCharacter_append_line q d t) h
  case h_13 => exact hscan (scanColon_append_line q t) h
  case h_14 =>
    rw [any_head?_append_line q (by decide)]
    split at h
    next hnumber =>
      rw [if_pos hnumber]
      exact hscan (scanNumber_append_line q _ t) h
    next hnumber =>
      rw [if_neg hnumber]
      exact hscan (scanSymbol_append_line q c t) h
  all_goals
    cases h
    rfl

/-! ## Tokens and forms in turn -/

/-- A feed that goes on with another one when it ends well. -/
def Feed.andThen {α β γ : Type} : Feed α β → Feed α γ → Feed α γ
  | .done _, later => later
  | .failed fault, _ => .failed fault
  | .next item rest, later => .next item (andThen rest later)

omit q in
lemma splitIgnored_append_of_cons {inComment : Bool} {t rest : Text} {c : Char}
    (h : (splitIgnored inComment t).2 = c :: rest) (more : Text) :
    splitIgnored inComment (t ++ more) = ((splitIgnored inComment t).1, c :: (rest ++ more)) := by
  induction t generalizing inComment with
  | nil => cases inComment <;> cases h
  | cons d t ih =>
    cases inComment with
    | true =>
      rw [List.cons_append, splitIgnored, ih h]
      rfl
    | false =>
      rw [splitIgnored] at h
      rw [List.cons_append, splitIgnored, splitIgnored]
      split at h
      next hsep => rw [if_pos hsep, if_pos hsep, ih h]
      next hsep =>
        rw [if_neg hsep, if_neg hsep]
        split at h
        next hsemi => rw [if_pos hsemi, if_pos hsemi, ih h]
        next hsemi =>
          cases h
          rw [if_neg hsemi, if_neg hsemi]

/-- Where only ignored text is left, a line feed ends it, and the text behind begins anew. -/
lemma splitIgnored_append_line {inComment : Bool} {t : Text} (h : (splitIgnored inComment t).2 = []) :
    splitIgnored inComment (t ++ '\n' :: q) =
      (t ++ '\n' :: (splitIgnored false q).1, (splitIgnored false q).2) := by
  induction t generalizing inComment with
  | nil => cases inComment <;> rfl
  | cons d t ih =>
    cases inComment with
    | true =>
      rw [List.cons_append, splitIgnored, ih h]
      rfl
    | false =>
      rw [splitIgnored] at h
      rw [List.cons_append, splitIgnored]
      split at h
      next hsep =>
        rw [if_pos hsep, ih h]
        rfl
      next hsep =>
        rw [if_neg hsep]
        split at h
        next hsemi =>
          rw [if_pos hsemi, ih h]
          rfl
        next => cases h

/-- The tokens of a text that can be read stay when a line feed and more text follow, and the tokens of that
text come behind them. -/
lemma tokensFrom_append_line {p stop : Position} {t : Text} (h : (tokensFrom p t).ending = .ok stop) :
    tokensFrom p (t ++ '\n' :: q) = (tokensFrom p t).andThen (tokensFrom (p.after (t ++ ['\n'])) q) := by
  induction hlength : t.length using Nat.strongRecOn generalizing p t with
  | _ n ih =>
    subst hlength
    have hsplit := splitIgnored_append false t
    rw [tokensFrom_eq] at h
    rw [tokensFrom_eq p (t ++ '\n' :: q), tokensFrom_eq p t]
    cases hbehind : (splitIgnored false t).2 with
    | nil =>
      rw [splitIgnored_append_line q hbehind, tokensAt, Feed.andThen, tokensFrom_eq, ← Position.after_append,
        List.append_assoc]
      rfl
    | cons c rest =>
      rw [splitIgnored_append_of_cons hbehind, tokensAt, tokensAt]
      rw [hbehind] at h hsplit
      rw [tokensAt] at h
      cases hscan : scanToken c rest with
      | rejected lead flagged cause =>
        rw [hscan] at h
        cases h
      | pastEnd =>
        rw [hscan] at h
        cases h
      | token lexeme raw behind =>
        rw [hscan] at h
        rw [scanToken_append_line q hscan]
        obtain ⟨htaken, hpositive⟩ := scanToken_split hscan
        have hlength := congrArg List.length hsplit
        rw [← htaken, List.length_append, List.length_append] at hlength
        have hrest := ih behind.length (by omega) h rfl
        have hend : p.after (t ++ ['\n']) =
            ((p.after (splitIgnored false t).1).after raw).after (behind ++ ['\n']) := by
          conv_lhs => rw [← hsplit, ← htaken]
          rw [List.append_assoc, List.append_assoc, Position.after_append, Position.after_append]
        rw [hend]
        exact congrArg (Feed.next _) hrest
omit q in
lemma collect_next {γ : Type} {g : Form → Except Fault γ} {f : Form} {result : γ} (hf : g f = .ok result)
    (rest : Forms) : (Feed.next f rest).collect g = (result :: ·) <$> rest.collect g := by
  rw [Feed.collect, hf]
  cases rest.collect g <;> rfl

omit q in
lemma collect_handOut {γ : Type} {g : Form → Except Fault γ} {f : Form} {result : γ} (hf : g f = .ok result)
    (behind : Tokens) (stack : List Pending) :
    (handOut f behind (run stack behind)).collect g = (result :: ·) <$> (run stack behind).collect g := by
  cases behind with
  | failed fault => rfl
  | done stop => exact collect_next hf _
  | next token rest => exact collect_next hf _

omit q in
lemma collect_handOut_inv {γ : Type} {g : Form → Except Fault γ} {f : Form} {behind : Tokens}
    {stack : List Pending} {results : List γ}
    (h : (handOut f behind (run stack behind)).collect g = .ok results) :
    ∃ result rest, g f = .ok result ∧ (run stack behind).collect g = .ok rest ∧ results = result :: rest := by
  have hnext : (Feed.next f (run stack behind)).collect g = .ok results := by
    cases behind with
    | failed fault => cases h
    | done stop => exact h
    | next token rest => exact h
  rw [Feed.collect] at hnext
  cases hf : g f with
  | error fault =>
    rw [hf] at hnext
    cases hnext
  | ok result =>
    cases hrest : (run stack behind).collect g with
    | error fault =>
      rw [hf, hrest] at hnext
      cases hnext
    | ok rest =>
      rw [hf, hrest] at hnext
      cases hnext
      exact ⟨result, rest, rfl, rfl, rfl⟩

omit q in
/-- The machine that hands out forms which all convert comes to the end of the tokens and to the empty stack, so
it goes on from there with further tokens. -/
lemma collect_run_andThen {γ : Type} {g : Form → Except Fault γ} {stack : List Pending} {feed : Tokens}
    {results : List γ} (h : (run stack feed).collect g = .ok results) :
    (∃ stop, feed.ending = .ok stop) ∧
      ∀ later, (run stack (feed.andThen later)).collect g = (results ++ ·) <$> (run [] later).collect g := by
  induction feed generalizing stack results with
  | failed fault => cases h
  | done stop =>
    cases stack with
    | nil =>
      cases h
      refine ⟨⟨stop, rfl⟩, fun later => ?_⟩
      cases hlater : (run [] later).collect g <;> simp [Feed.andThen, hlater]
    | cons top below => cases top <;> cases h
  | next token behind ih =>
    cases hpush : pushToken token stack with
    | error fault =>
      rw [run_of_error hpush] at h
      cases h
    | ok outcome =>
      obtain ⟨complete, stack'⟩ := outcome
      rw [run_of_ok hpush] at h
      cases complete with
      | none =>
        obtain ⟨hstop, hlater⟩ := ih h
        refine ⟨hstop, fun later => ?_⟩
        rw [Feed.andThen, run_of_ok hpush]
        exact hlater later
      | some f =>
        obtain ⟨result, rest, hf, hrest, rfl⟩ := collect_handOut_inv h
        obtain ⟨hstop, hlater⟩ := ih hrest
        refine ⟨hstop, fun later => ?_⟩
        rw [Feed.andThen, run_of_ok hpush, resume, collect_handOut hf, hlater]
        cases (run [] later).collect g <;> rfl

end

/-! ## Moved positions -/

/-- A span with both ends moved. -/
def Span.move (π : Position → Position) (span : Span) : Span := ⟨π span.start, π span.stop⟩

/-- A token with its span moved. -/
def Token.move (π : Position → Position) (token : Token) : Token := ⟨token.lexeme, token.raw, token.span.move π⟩

/-- A form with all its spans moved. -/
abbrev Form.move (π : Position → Position) (f : Form) : Form := f.mapSpan (Option.map (Span.move π))

/-- A fault with all its spans moved. -/
abbrev Fault.move (π : Position → Position) (fault : Fault) : Fault := fault.mapSpan (Option.map (Span.move π))

/-- A feed with its items, its closing value and its fault changed. -/
def Feed.map {α α' β β' : Type} (onItem : α → α') (onClosing : β → β') (onFault : Fault → Fault) :
    Feed α β → Feed α' β'
  | .done closing => .done (onClosing closing)
  | .failed fault => .failed (onFault fault)
  | .next item rest => .next (onItem item) (map onItem onClosing onFault rest)

/-- Tokens with all positions moved. -/
abbrev Tokens.move (π : Position → Position) (feed : Tokens) : Tokens := feed.map (Token.move π) π (Fault.move π)

/-- Forms with all positions moved. -/
abbrev Forms.move (π : Position → Position) (feed : Forms) : Forms := feed.map (Form.move π) id (Fault.move π)

section

variable {π : Position → Position}

lemma mapSpan_of_isReading {φ : Option Span → Option Span} {cause : Cause} (h : cause.isReading = true) :
    cause.mapSpan φ = cause := by
  cases cause <;> first | rfl | cases h

section

variable (hπ : ∀ p c, (π p).next c = π (p.next c))

include hπ

lemma after_move (p : Position) (t : Text) : (π p).after t = π (p.after t) := by
  induction t generalizing p with
  | nil => rfl
  | cons c t ih => rw [Position.after_cons, Position.after_cons, hπ, ih]

/-- A text that begins elsewhere has the same tokens, all moved in the same way. -/
lemma tokensFrom_move (p : Position) (t : Text) : tokensFrom (π p) t = (tokensFrom p t).move π := by
  induction hlength : t.length using Nat.strongRecOn generalizing p t with
  | _ n ih =>
    subst hlength
    rw [tokensFrom_eq, tokensFrom_eq p]
    have hsplit := congrArg List.length (splitIgnored_append false t)
    cases hbehind : (splitIgnored false t).2 with
    | nil =>
      rw [tokensAt, tokensAt, after_move hπ]
      rfl
    | cons c rest =>
      rw [tokensAt, tokensAt]
      cases hscan : scanToken c rest with
      | pastEnd => rfl
      | rejected lead flagged cause =>
        obtain ⟨-, -, hreading⟩ := faultsIn_scanToken hscan
        simp only [Tokens.move, Feed.map, Fault.located, Fault.move, Fault.mapSpan, Option.map_some,
          mapSpan_of_isReading hreading, Position.span, Span.move, after_move hπ]
      | token lexeme raw behind =>
        obtain ⟨htaken, hpositive⟩ := scanToken_split hscan
        have hraw := congrArg List.length htaken
        rw [hbehind, List.length_append] at hsplit
        rw [List.length_append] at hraw
        have hrest := ih behind.length (by omega) ((p.after (splitIgnored false t).1).after raw) behind rfl
        simp only [Tokens.move, Feed.map, Token.move, Position.span, Span.move, after_move hπ] at hrest ⊢
        rw [hrest]

end

/-- What waits for forms, with all positions moved. -/
def Pending.move (π : Position → Position) : Pending → Pending
  | .bracket opener span elements => .bracket opener (span.move π) (elements.map (Form.move π))
  | .mark marker span => .mark marker (span.move π)

lemma mapSpans_eq_map (φ : Option Span → Option Span) (forms : List Form) :
    Form.mapSpans φ forms = forms.map (Form.mapSpan φ) := by
  induction forms with
  | nil => rfl
  | cons f forms ih => rw [Form.mapSpans, List.map_cons, ih]

lemma wrap_move (marker : Marker) (span : Span) (f : Form) :
    marker.wrap (span.move π) (f.move π) = (marker.wrap span f).move π := by
  cases hspan : f.span <;>
    simp [Marker.wrap, Form.move, Form.mapSpan, Form.mapSpans, hspan, Span.move]

/-- What a token does to the stack, with all positions moved. -/
def moveOutcome (π : Position → Position) (outcome : Option Form × List Pending) : Option Form × List Pending :=
  (outcome.1.map (Form.move π), outcome.2.map (Pending.move π))

lemma attach_move (f : Form) (stack : List Pending) :
    attach (f.move π) (stack.map (Pending.move π)) = moveOutcome π (attach f stack) := by
  induction stack generalizing f with
  | nil => rfl
  | cons top below ih =>
    cases top with
    | bracket opener span elements => rfl
    | mark marker span => rw [List.map_cons, Pending.move, attach, attach, wrap_move, ih]

lemma closeTop_move (closer : Closer) (span : Span) (stack : List Pending) :
    closeTop closer (span.move π) (stack.map (Pending.move π)) =
      ((closeTop closer span stack).map (moveOutcome π)).mapError (Fault.move π) := by
  cases stack with
  | nil => rfl
  | cons top below =>
    cases top with
    | mark marker place => rfl
    | bracket opener place elements =>
      rw [List.map_cons, Pending.move, closeTop, closeTop]
      split
      · have hwhole := attach_move (π := π) (.compound (opener.shape elements.length) elements.reverse
          (some ⟨place.start, span.stop⟩)) below
        rw [Form.move, Form.mapSpan, mapSpans_eq_map, List.map_reverse] at hwhole
        rw [List.length_map]
        exact congrArg Except.ok hwhole
      · rfl

lemma pushToken_move (token : Token) (stack : List Pending) :
    pushToken (token.move π) (stack.map (Pending.move π)) =
      ((pushToken token stack).map (moveOutcome π)).mapError (Fault.move π) := by
  obtain ⟨lexeme, raw, span⟩ := token
  have hatom (value : Atom) := attach_move (π := π) (.atom value (some span)) stack
  cases lexeme with
  | opening opener => rfl
  | marker marker => rfl
  | closing closer => exact closeTop_move closer span stack
  | symbol name => exact congrArg Except.ok (hatom (.ofName name))
  | keyword name => exact congrArg Except.ok (hatom (.keyword name))
  | string value => exact congrArg Except.ok (hatom (.string value))
  | character value => exact congrArg Except.ok (hatom (.character [value]))
  | number value => exact congrArg Except.ok (hatom (.number value))

/-- The machine does the same at other positions. -/
lemma run_move (stack : List Pending) (feed : Tokens) :
    run (stack.map (Pending.move π)) (feed.move π) = (run stack feed).move π := by
  induction feed generalizing stack with
  | failed fault => rfl
  | done stop =>
    cases stack with
    | nil => rfl
    | cons top below => cases top <;> rfl
  | next token behind ih =>
    have hmove := pushToken_move (π := π) token stack
    cases hpush : pushToken token stack with
    | error fault =>
      rw [hpush] at hmove
      rw [run_of_error hpush]
      exact run_of_error hmove
    | ok outcome =>
      obtain ⟨complete, stack'⟩ := outcome
      rw [hpush] at hmove
      rw [run_of_ok hpush]
      refine (run_of_ok hmove).trans ?_
      cases complete with
      | none => exact ih stack'
      | some f =>
        rw [moveOutcome, Option.map_some, resume, resume, ih]
        cases behind <;> rfl

/-- Conversions do not look at positions. -/
lemma collect_move (feed : Forms) (top : Bool) :
    (feed.move π).collect (Form.toNode top) = (feed.collect (Form.toNode top)).mapError (Fault.move π) := by
  induction feed with
  | done closing => rfl
  | failed fault => rfl
  | next f rest ih =>
    rw [Forms.move, Feed.map, Feed.collect, Feed.collect, Form.move, toNode_mapSpan, mapError_bind, ih]
    simp only [mapError_bind, mapError_pure]

end

/-! ## The second source -/

/-- The position behind some lines and characters more. -/
def Position.shift (lines characters : Nat) (p : Position) : Position :=
  ⟨p.line + lines, p.column, p.offset + characters⟩

lemma next_shift (lines characters : Nat) (p : Position) (c : Char) :
    (p.shift lines characters).next c = (p.next c).shift lines characters := by
  by_cases hc : c = '\n'
  · simp only [Position.next, Position.shift, hc, if_true, Position.mk.injEq, true_and]
    omega
  · simp only [Position.next, Position.shift, hc, if_false, Position.mk.injEq, true_and]
    omega

lemma after_line (p : Text) :
    Position.origin.after (p ++ ['\n']) = Position.origin.shift (1 + p.count '\n') (p.length + 1) := by
  rw [after_origin]
  simp [Position.origin, Position.shift]
  omega

mutual

lemma text_mapSpan (φ : Option Span → Option Span) (f : Form) : (f.mapSpan φ).text = f.text := by
  cases f with
  | atom value span => rfl
  | compound shape elements span => rw [Form.mapSpan, Form.text, Form.text, texts_mapSpans]

lemma texts_mapSpans (φ : Option Span → Option Span) (forms : List Form) :
    Form.texts (Form.mapSpans φ forms) = Form.texts forms := by
  cases forms with
  | nil => rfl
  | cons f rest => rw [Form.mapSpans, Form.texts, Form.texts, text_mapSpan, texts_mapSpans]

end

/-- Two faults that differ only in places: the second one is the first one behind some lines and characters
more. -/
inductive Fault.Behind (lines characters : Nat) : Fault → Fault → Prop
  | diagnostic {d d' : Diagnostic} (hlabel : d'.cause.label = d.cause.label)
    (hmessage : d'.cause.message = d.cause.message)
    (hcause : d'.cause.mapSpan (fun _ => none) = d.cause.mapSpan fun _ => none)
    (hspan : d'.span = d.span.map (Span.move (Position.shift lines characters))) :
    Behind lines characters (.diagnostic d) (.diagnostic d')
  | pastEnd : Behind lines characters .pastEnd .pastEnd
  | literal (e : LiteralError) : Behind lines characters (.literal e) (.literal e)

lemma bare_mapSpan (φ : Option Span → Option Span) (f : Form) : (f.mapSpan φ).bare = f.bare := by
  induction f using Form.inductionOn with
  | atom value span => rfl
  | compound shape elements span ih =>
    rw [Form.mapSpan, Form.bare, Form.bare, bareAll_eq_mapSpans, bareAll_eq_mapSpans, mapSpans_eq_map,
      mapSpans_eq_map, mapSpans_eq_map, List.map_map]
    congr 1
    refine List.map_congr_left fun g hg => ?_
    rw [Function.comp_apply, ← bare_eq_mapSpan, ← bare_eq_mapSpan, ih g hg]

lemma culprit_mapSpan (φ : Option Span → Option Span) (culprit : Culprit) :
    (culprit.mapSpan φ).shown = culprit.shown ∧
      (culprit.mapSpan φ).mapSpan (fun _ => none) = culprit.mapSpan fun _ => none := by
  cases culprit with
  | form f =>
    simp only [Culprit.mapSpan, Culprit.shown, text_mapSpan, ← bare_eq_mapSpan, bare_mapSpan, true_and]
  | node n => exact ⟨rfl, rfl⟩
  | text t => exact ⟨rfl, rfl⟩
  | absent => exact ⟨rfl, rfl⟩

lemma cause_mapSpan (φ : Option Span → Option Span) (cause : Cause) :
    (cause.mapSpan φ).label = cause.label ∧ (cause.mapSpan φ).message = cause.message ∧
      (cause.mapSpan φ).mapSpan (fun _ => none) = cause.mapSpan fun _ => none := by
  cases cause with
  | wrongStructure kind culprit problem =>
    obtain ⟨hshown, hbare⟩ := culprit_mapSpan φ culprit
    refine ⟨rfl, congrArg (_ ++ ·) hshown, ?_⟩
    rw [Cause.mapSpan, Cause.mapSpan, Cause.mapSpan, hbare]
  | wrongCount kind culprit expected found =>
    obtain ⟨hshown, hbare⟩ := culprit_mapSpan φ culprit
    refine ⟨rfl, congrArg (_ ++ ·) hshown, ?_⟩
    rw [Cause.mapSpan, Cause.mapSpan, Cause.mapSpan, hbare]
  | _ => exact ⟨rfl, rfl, rfl⟩

lemma behind_move (lines characters : Nat) (fault : Fault) :
    fault.Behind lines characters (fault.move (Position.shift lines characters)) := by
  cases fault with
  | diagnostic d =>
    obtain ⟨hlabel, hmessage, hcause⟩ := cause_mapSpan _ d.cause
    exact .diagnostic hlabel hmessage hcause rfl
  | pastEnd => exact .pastEnd
  | literal e => exact .literal e

/-- The program of a source behind a line feed and some text is the program of that source, with all positions
moved. -/
lemma program_behind (p q : Text) :
    (run [] (tokensFrom (Position.origin.after (p ++ ['\n'])) q)).collect (Form.toNode true) =
      (program q).mapError (Fault.move (Position.shift (1 + p.count '\n') (p.length + 1))) := by
  rw [after_line, tokensFrom_move (next_shift _ _)]
  have hrun := run_move (π := Position.shift (1 + p.count '\n') (p.length + 1)) [] (tokensFrom .origin q)
  rw [List.map_nil] at hrun
  rw [hrun, collect_move, program, forms, readForms_eq_run, tokens]

/-- A source that can be read, with a line feed and another source behind it, has the nodes of both programs in
turn. If the other source cannot be read, its fault is met, only further behind: by the lines and characters of
the first source and by the line feed. -/
theorem program_append_line {p : Text} {ns : List Node} (hp : program p = .ok ns) (q : Text) :
    (∀ ms, program q = .ok ms → program (p ++ '\n' :: q) = .ok (ns ++ ms)) ∧
      ∀ fault, program q = .error fault → ∃ fault', program (p ++ '\n' :: q) = .error fault' ∧
        fault.Behind (1 + p.count '\n') (p.length + 1) fault' := by
  rw [program, forms, readForms_eq_run, tokens] at hp
  obtain ⟨⟨stop, hstop⟩, hlater⟩ := collect_run_andThen hp
  have hboth : program (p ++ '\n' :: q) = (ns ++ ·) <$>
      (program q).mapError (Fault.move (Position.shift (1 + p.count '\n') (p.length + 1))) := by
    rw [← program_behind, ← hlater, ← tokensFrom_append_line q hstop]
    rw [program, forms, readForms_eq_run, tokens]
  refine ⟨fun ms hq => ?_, fun fault hq => ?_⟩
  · rw [hboth, hq]
    rfl
  · rw [hboth, hq]
    exact ⟨_, rfl, behind_move _ _ fault⟩

theorem program_append_line_unclosed :
    program "[\"f\"] ;\n[]".toList = .ok [.vector [.literal (.string "f".toList)], .vector []] ∧
      program "[] (".toList = .error (.located (.unclosed ")".toList) ⟨⟨1, 4, 3⟩, ⟨1, 5, 4⟩⟩) ∧
      ∃ fault, program ("[\"f\"] ;\n[]".toList ++ '\n' :: "[] (".toList) = .error fault ∧
        Fault.Behind 2 11 (.located (.unclosed ")".toList) ⟨⟨1, 4, 3⟩, ⟨1, 5, 4⟩⟩) fault := by
  have hp : program "[\"f\"] ;\n[]".toList = .ok [.vector [.literal (.string "f".toList)], .vector []] := by cbv
  have hq : program "[] (".toList = .error (.located (.unclosed ")".toList) ⟨⟨1, 4, 3⟩, ⟨1, 5, 4⟩⟩) := by cbv
  exact ⟨hp, hq, (program_append_line hp "[] (".toList).2 _ hq⟩

end Bilisp
