import Bilisp.Proofs.StackMachine

/-!
# Invariants of the stack machine

What every step of the machine keeps holds of its whole run, so of the forms and the fault of the recursive reader
(`RunInvariant.readForms`). The machine has no fault of its own but diagnostics, which point at a token it met.
-/

namespace Bilisp

/-- The place of the token that left something on the stack. -/
def Pending.span : Pending → Span
  | .bracket _ span _ => span
  | .mark _ span => span

/-- A token is refused with a diagnostic that points at it or at what waits for forms. -/
lemma located_of_pushToken {token : Token} {stack : List Pending} {fault : Fault}
    (h : pushToken token stack = .error fault) :
    ∃ cause span, fault = .located cause span ∧ (span = token.span ∨ ∃ top ∈ stack, top.span = span) := by
  unfold pushToken at h
  split at h
  case h_2 =>
    unfold closeTop at h
    split at h
    · cases h
      exact ⟨_, _, rfl, .inl rfl⟩
    · cases h
      exact ⟨_, _, rfl, .inr ⟨_, List.mem_cons_self, rfl⟩⟩
    · split at h
      · cases h
      · cases h
        exact ⟨_, _, rfl, .inl rfl⟩
  all_goals cases h

/-- The end of the tokens is refused with a diagnostic that points at what waits for forms. -/
lemma located_of_endOfTokens {stack : List Pending} {fault : Fault}
    (h : (endOfTokens stack).ending = .error fault) :
    ∃ cause, ∃ top ∈ stack, fault = .located cause top.span := by
  unfold endOfTokens at h
  split at h
  · cases h
  · cases h
    exact ⟨_, _, List.mem_cons_self, rfl⟩
  · cases h
    exact ⟨_, _, List.mem_cons_self, rfl⟩

/-- A completed form is handed out in front of later forms, or the token behind it is a fault. -/
lemma handOut_cases (f : Form) (behind : Tokens) (later : Forms) :
    handOut f behind later = .next f later ∨
      ∃ fault, behind = .failed fault ∧ handOut f behind later = .failed fault := by
  cases behind with
  | failed fault => exact .inr ⟨fault, rfl, rfl⟩
  | done stop => exact .inl rfl
  | next token rest => exact .inl rfl

/-- What a run of the machine keeps: a relation between the stack and the tokens to come, which lets only forms
with `Q` be completed and only faults with `P` arise. -/
structure RunInvariant (Inv : List Pending → Tokens → Prop) (Q : Form → Prop) (P : Fault → Prop) : Prop where
  done {stack : List Pending} {stop : Position} (h : Inv stack (.done stop)) :
    ∀ fault, (endOfTokens stack).ending = .error fault → P fault
  failed {stack : List Pending} {fault : Fault} (h : Inv stack (.failed fault)) : P fault
  refused {stack : List Pending} {token : Token} {behind : Tokens} {fault : Fault}
    (h : Inv stack (.next token behind)) (hpush : pushToken token stack = .error fault) : P fault
  taken {stack : List Pending} {token : Token} {behind : Tokens} {outcome : Option Form × List Pending}
    (h : Inv stack (.next token behind)) (hpush : pushToken token stack = .ok outcome) :
    (∀ f ∈ outcome.1, Q f) ∧ Inv outcome.2 behind

namespace RunInvariant

variable {Inv : List Pending → Tokens → Prop} {Q : Form → Prop} {P : Fault → Prop}

lemma run (h : RunInvariant Inv Q P) {stack : List Pending} {tokens : Tokens} (hinv : Inv stack tokens) :
    (∀ f ∈ (run stack tokens).items, Q f) ∧ ∀ fault, (run stack tokens).ending = .error fault → P fault := by
  induction tokens generalizing stack with
  | done stop =>
    refine ⟨fun f hf => ?_, h.done hinv⟩
    rcases stack with - | ⟨_ | _, _⟩ <;> cases hf
  | failed fault =>
    refine ⟨fun f hf => absurd hf List.not_mem_nil, fun fault' hfault => ?_⟩
    cases hfault
    exact h.failed hinv
  | next token behind ih =>
    cases hpush : pushToken token stack with
    | error fault =>
      rw [run_of_error hpush]
      refine ⟨fun f hf => absurd hf List.not_mem_nil, fun fault' hfault => ?_⟩
      cases hfault
      exact h.refused hinv hpush
    | ok outcome =>
      obtain ⟨hdone, hinv'⟩ := h.taken hinv hpush
      obtain ⟨hforms, hfaults⟩ := ih hinv'
      rw [run_of_ok hpush]
      obtain ⟨completed, stack'⟩ := outcome
      cases completed with
      | none => exact ⟨hforms, hfaults⟩
      | some f =>
        rw [resume]
        rcases handOut_cases f behind (Bilisp.run stack' behind) with hout | ⟨fault, rfl, hout⟩
        · rw [hout]
          exact ⟨List.forall_mem_cons.2 ⟨hdone f rfl, hforms⟩, hfaults⟩
        · rw [hout]
          refine ⟨fun f hf => absurd hf List.not_mem_nil, fun fault' hfault => ?_⟩
          cases hfault
          exact h.failed hinv'

/-- What the machine keeps from the empty stack on holds of the forms that the reader hands out, and of the fault
that it ends with. -/
theorem readForms (h : RunInvariant Inv Q P) {tokens : Tokens} (hinv : Inv [] tokens) :
    (∀ f ∈ (readForms tokens).items, Q f) ∧ ∀ fault, (readForms tokens).ending = .error fault → P fault := by
  rw [readForms_eq_run]
  exact h.run hinv

end RunInvariant

end Bilisp
