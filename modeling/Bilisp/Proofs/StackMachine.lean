import Bilisp.Form.Reader
import Mathlib.Tactic.Common

/-!
# Reading with a stack

The nesting of forms can be read without recursion. A stack machine goes through the tokens from left to
right and keeps what waits for forms: open brackets with the elements read so far, and quote markers. The
machine decides every fault by the top of its stack. The recursive reader gives the same forms and ends in the
same way, for all tokens (`reader_agrees_with_machine`).
-/

namespace Bilisp

/-- What waits for forms: an open bracket with the elements read so far, the last one first, or a quote
marker. -/
inductive Pending where
  | bracket (opener : Opener) (span : Span) (elements : List Form)
  | mark (marker : Marker) (span : Span)

/-- A complete form pops the markers on top of the stack, which wrap it. It joins the elements of the open
bracket below them or, on the empty stack, stands on its own. -/
def attach (f : Form) : List Pending → Option Form × List Pending
  | [] => (some f, [])
  | .mark marker span :: below => attach (marker.wrap span f) below
  | .bracket opener span elements :: below => (none, .bracket opener span (f :: elements) :: below)

/-- A closer completes the form of the open bracket on top of the stack, if the two belong together. -/
def closeTop (closer : Closer) (span : Span) : List Pending → Except Fault (Option Form × List Pending)
  | [] => .error (.located (.extraCloser closer.text) span)
  | .mark marker place :: _ => .error (marker.alone place)
  | .bracket opener place elements :: below =>
    if opener.closer = closer then
      .ok (attach (.compound (opener.shape elements.length) elements.reverse
        (some ⟨place.start, span.stop⟩)) below)
    else .error (.located (.mismatchedCloser opener.closer.text closer.text) span)

/-- What a token does to the stack: some stack remains, and a form may be complete above no other. -/
def pushToken (token : Token) (stack : List Pending) : Except Fault (Option Form × List Pending) :=
  match token.lexeme with
  | .opening opener => .ok (none, .bracket opener token.span [] :: stack)
  | .closing closer => closeTop closer token.span stack
  | .marker marker => .ok (none, .mark marker token.span :: stack)
  | .symbol name => .ok (attach (.atom (.ofName name) (some token.span)) stack)
  | .keyword name => .ok (attach (.atom (.keyword name) (some token.span)) stack)
  | .string value => .ok (attach (.atom (.string value) (some token.span)) stack)
  | .character value => .ok (attach (.atom (.character [value]) (some token.span)) stack)
  | .number value => .ok (attach (.atom (.number value) (some token.span)) stack)

/-- What the end of the tokens means for what still waits for forms. -/
def endOfTokens : List Pending → Forms
  | [] => .done ()
  | .mark marker span :: _ => .failed (marker.alone span)
  | .bracket opener span _ :: _ => .failed (.located (.unclosed opener.closer.text) span)

/-- A form in front of later forms, unless the token behind the form is a fault. -/
def handOut (f : Form) (behind : Tokens) (later : Forms) : Forms :=
  match behind with
  | .failed fault => .failed fault
  | _ => .next f later

/-- The run of the machine from a stack. -/
def run (stack : List Pending) : Tokens → Forms
  | .done _ => endOfTokens stack
  | .failed fault => .failed fault
  | .next token behind =>
    match pushToken token stack with
    | .error fault => .failed fault
    | .ok (none, stack') => run stack' behind
    | .ok (some f, stack') => handOut f behind (run stack' behind)

/-- How the machine goes on after a token. -/
def resume (outcome : Option Form × List Pending) (behind : Tokens) : Forms :=
  match outcome with
  | (none, stack) => run stack behind
  | (some f, stack) => handOut f behind (run stack behind)

lemma run_of_error {token : Token} {behind : Tokens} {stack : List Pending} {fault : Fault}
    (h : pushToken token stack = .error fault) : run stack (.next token behind) = .failed fault := by
  rw [run, h]

lemma run_of_ok {token : Token} {behind : Tokens} {stack : List Pending}
    {outcome : Option Form × List Pending} (h : pushToken token stack = .ok outcome) :
    run stack (.next token behind) = resume outcome behind := by
  rw [run, h]
  rcases outcome with ⟨_ | f, stack'⟩ <;> rfl

@[simp] lemma resume_failed (outcome : Option Form × List Pending) (fault : Fault) :
    resume outcome (.failed fault) = .failed fault := by
  rcases outcome with ⟨_ | f, stack⟩ <;> rfl

/-! ## What a token does -/

/-- The atom that a lexeme is read as. -/
def Lexeme.atom? : Lexeme → Option Atom
  | .symbol name => some (.ofName name)
  | .keyword name => some (.keyword name)
  | .string value => some (.string value)
  | .character value => some (.character [value])
  | .number value => some (.number value)
  | _ => none

lemma pushToken_atom {token : Token} {value : Atom} (h : token.lexeme.atom? = some value) (stack : List Pending) :
    pushToken token stack = .ok (attach (.atom value (some token.span)) stack) := by
  obtain ⟨lexeme, raw, span⟩ := token
  cases lexeme <;> cases h <;> rfl

lemma pushToken_opening {token : Token} {opener : Opener} (h : token.lexeme = .opening opener)
    (stack : List Pending) : pushToken token stack = .ok (none, .bracket opener token.span [] :: stack) := by
  rw [pushToken, h]

lemma pushToken_marker {token : Token} {marker : Marker} (h : token.lexeme = .marker marker) (stack : List Pending) :
    pushToken token stack = .ok (none, .mark marker token.span :: stack) := by
  rw [pushToken, h]

lemma pushToken_closing {token : Token} {opener : Opener} (h : token.lexeme = .closing opener.closer) (place : Span)
    (elements : List Form) (below : List Pending) :
    pushToken token (.bracket opener place elements :: below) =
      .ok (attach (.compound (opener.shape elements.length) elements.reverse
        (some ⟨place.start, token.span.stop⟩)) below) := by
  rw [pushToken, h]
  exact if_pos rfl

/-- A token that is not refused is an opening bracket, a marker, an atom, or the closing bracket that the top of the
stack waits for. -/
lemma pushToken_cases {token : Token} {stack : List Pending} {outcome : Option Form × List Pending}
    (h : pushToken token stack = .ok outcome) :
    (∃ opener, token.lexeme = .opening opener ∧ outcome = (none, .bracket opener token.span [] :: stack)) ∨
    (∃ marker, token.lexeme = .marker marker ∧ outcome = (none, .mark marker token.span :: stack)) ∨
    (∃ value, token.lexeme.atom? = some value ∧ outcome = attach (.atom value (some token.span)) stack) ∨
    ∃ opener place elements below, token.lexeme = .closing opener.closer ∧
      stack = .bracket opener place elements :: below ∧
      outcome = attach (.compound (opener.shape elements.length) elements.reverse
        (some ⟨place.start, token.span.stop⟩)) below := by
  cases hlexeme : token.lexeme with
  | opening opener =>
    rw [pushToken_opening hlexeme] at h
    exact .inl ⟨opener, rfl, (Except.ok.inj h).symm⟩
  | marker marker =>
    rw [pushToken_marker hlexeme] at h
    exact .inr (.inl ⟨marker, rfl, (Except.ok.inj h).symm⟩)
  | closing closer =>
    rw [pushToken, hlexeme] at h
    unfold closeTop at h
    dsimp only at h
    split at h
    · cases h
    · cases h
    next opener place elements below =>
      split at h
      next hcloser => exact .inr (.inr (.inr ⟨opener, place, elements, below, by rw [hcloser], rfl,
        (Except.ok.inj h).symm⟩))
      next => cases h
  | _ =>
    rw [pushToken_atom (by rw [hlexeme]; rfl)] at h
    exact .inr (.inr (.inl ⟨_, rfl, (Except.ok.inj h).symm⟩))

/-! ## Agreement with the recursive reader -/

/-- Whether a run of the machine goes on as the outcome of reading one form says: with the form attached to
the stack in front of the tokens behind it, or with the same fault. -/
def Agrees {bound : Nat} (forms : Forms) (stack : List Pending) (result : Except Fault (FormReading bound)) :
    Prop :=
  match result with
  | .ok reading => forms = resume (attach reading.form stack) reading.behind ∧
      ∀ fault, reading.behind ≠ .failed fault
  | .error fault => forms = .failed fault

lemma agrees_complete (f : Form) (stack : List Pending) (behind : Tokens) :
    Agrees (resume (attach f stack) behind) stack (FormReading.complete f behind) := by
  cases behind with
  | done stop => exact ⟨rfl, fun _ h => nomatch h⟩
  | failed fault => exact resume_failed _ fault
  | next token rest => exact ⟨rfl, fun _ h => nomatch h⟩

lemma Agrees.widen {bound bound' : Nat} {forms : Forms} {stack : List Pending}
    {result : Except Fault (FormReading bound)} (h : Agrees forms stack result)
    (f : FormReading bound → FormReading bound')
    (hform : ∀ r, (f r).form = r.form) (hbehind : ∀ r, (f r).behind = r.behind) :
    Agrees forms stack (result >>= fun r => pure (f r)) := by
  cases result with
  | error fault => exact h
  | ok r =>
    change _ = resume (attach (f r).form stack) (f r).behind ∧ ∀ fault, (f r).behind ≠ .failed fault
    rw [hform, hbehind]
    exact h

mutual

/-- Reading one form does to the tokens what the machine does on any stack. A closer cannot begin a form
inside a bracket or behind a marker, so it comes on the empty stack only. -/
theorem agrees_readForm (token : Token) (behind : Tokens) (stack : List Pending)
    (h : stack = [] ∨ ∀ closer, token.lexeme ≠ .closing closer) :
    Agrees (run stack (.next token behind)) stack (readForm token behind) := by
  rw [readForm]
  split
  next opener hl =>
    rw [run_of_ok (by rw [pushToken, hl])]
    exact agrees_readElements opener token.span [] behind stack
  next closer hl =>
    rcases h with rfl | h
    · exact run_of_error (by rw [pushToken, hl]; rfl)
    · exact absurd hl (h closer)
  next marker hl =>
    rw [run_of_ok (by rw [pushToken, hl])]
    exact agrees_readMarked marker token.span behind stack
  all_goals
    next hl =>
      rw [run_of_ok (by rw [pushToken, hl])]
      exact agrees_complete _ stack behind
termination_by (behind.length, 1)

theorem agrees_readElements (opener : Opener) (span : Span) (elements : List Form) (tokens : Tokens)
    (stack : List Pending) :
    Agrees (run (.bracket opener span elements :: stack) tokens) stack
      (readElements opener span elements tokens) := by
  cases tokens with
  | done stop =>
    rw [readElements]
    rfl
  | failed fault =>
    rw [readElements]
    rfl
  | next token behind =>
    rw [readElements]
    split
    next closer hl =>
      by_cases hc : opener.closer = closer
      · have hpush : pushToken token (.bracket opener span elements :: stack) =
            .ok (attach (.compound (opener.shape elements.length) elements.reverse
              (some ⟨span.start, token.span.stop⟩)) stack) := by
          rw [pushToken, hl]
          exact if_pos hc
        rw [run_of_ok hpush]
        simp only [hc, ne_eq, not_true_eq_false, if_false]
        exact (agrees_complete _ stack behind).widen _ (fun _ => rfl) (fun _ => rfl)
      · have hpush : pushToken token (.bracket opener span elements :: stack) =
            .error (.located (.mismatchedCloser opener.closer.text closer.text) token.span) := by
          rw [pushToken, hl]
          exact if_neg hc
        rw [run_of_error hpush]
        simp only [hc, ne_eq, not_false_eq_true, if_true]
        rfl
    next hl =>
      have hform := agrees_readForm token behind (.bracket opener span elements :: stack)
        (.inr hl)
      cases hread : readForm token behind with
      | error fault =>
        rw [hread] at hform
        exact hform
      | ok element =>
        rw [hread] at hform
        obtain ⟨hrun, -⟩ := hform
        have hlen := element.length_le
        have hrest := agrees_readElements opener span (element.form :: elements) element.behind stack
        rw [hrun]
        exact hrest.widen _ (fun _ => rfl) (fun _ => rfl)
termination_by (tokens.length, 0)

theorem agrees_readMarked (marker : Marker) (span : Span) (tokens : Tokens) (stack : List Pending) :
    Agrees (run (.mark marker span :: stack) tokens) stack (readMarked marker span tokens) := by
  cases tokens with
  | done stop =>
    rw [readMarked]
    rfl
  | failed fault =>
    rw [readMarked]
    rfl
  | next token behind =>
    rw [readMarked]
    split
    next closer hl =>
      exact run_of_error (by rw [pushToken, hl]; rfl)
    next hl =>
      have hform := agrees_readForm token behind (.mark marker span :: stack) (.inr hl)
      cases hread : readForm token behind with
      | error fault =>
        rw [hread] at hform
        exact hform
      | ok inner =>
        rw [hread] at hform
        exact hform
termination_by (tokens.length, 0)

end

lemma handOut_of_sound {f : Form} {behind : Tokens} (later : Forms)
    (h : ∀ fault, behind ≠ .failed fault) : handOut f behind later = .next f later := by
  cases behind with
  | failed fault => exact absurd rfl (h fault)
  | done stop => rfl
  | next token rest => rfl

/-- The recursive reader is the run of the machine from the empty stack. -/
theorem readForms_eq_run (tokens : Tokens) : readForms tokens = run [] tokens := by
  fun_induction readForms tokens with
  | case1 => rfl
  | case2 => rfl
  | case3 token behind fault hread =>
    have h := agrees_readForm token behind [] (.inl rfl)
    rw [hread] at h
    exact h.symm
  | case4 token behind reading hread _ ih =>
    have h := agrees_readForm token behind [] (.inl rfl)
    rw [hread] at h
    obtain ⟨hrun, hsound⟩ := h
    rw [hrun, ih]
    exact (handOut_of_sound _ hsound).symm

/-- The recursive reader hands out the forms that the machine completes on the empty stack, in the same order,
and it ends as the machine does: without a fault, or with the same fault at the same place. -/
theorem reader_agrees_with_machine (tokens : Tokens) :
    (readForms tokens).items = (run [] tokens).items ∧
      (readForms tokens).ending = (run [] tokens).ending := by
  rw [readForms_eq_run]
  exact ⟨rfl, rfl⟩

end Bilisp
