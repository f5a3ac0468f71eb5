import Bilisp.Proofs.FaultPlaces
import Bilisp.Proofs.TakenTokens
import Bilisp.Source

/-!
# Refused closing brackets

A closing bracket is refused where no bracket is open, or where the open one needs another bracket. Only the stack
machine refuses brackets, and it does so before it asks for the token behind them. A bracket ends the token in front of
it and is a token whatever follows, so the text up to the refused bracket decides all that is read
(`exists_refused_closer`): what is appended to a source with such a fault changes nothing (`forms_append_of_refused`).
-/

namespace Bilisp

/-- Whether a fault is that the closing bracket in a span is refused. -/
inductive Fault.RefusesCloserAt (span : Span) : Fault → Prop
  | extra (closer : Text) : RefusesCloserAt span (.located (.extraCloser closer) span)
  | mismatched (expected found : Text) : RefusesCloserAt span (.located (.mismatchedCloser expected found) span)

variable {fault : Fault} {span : Span}

/-! ## Who refuses a bracket -/

/-- The scanner refuses no bracket. -/
lemma not_refused_of_tokensFrom (p : Position) (t : Text) :
    FailsAs (fun fault => ∀ span, ¬fault.RefusesCloserAt span) (tokensFrom p t).ending := by
  fun_induction tokensFrom p t with
  | case1 => trivial
  | case2 p t _ c rest hsplit lexeme raw behind hscan _ _ ih => exact ih
  | case3 p t _ c rest hsplit lead flagged cause hscan =>
    intro span hrefused
    have hflags := (flags_of_scanToken hscan).2
    cases hrefused <;> cases hflags
  | case4 =>
    intro span hrefused
    cases hrefused

/-- Of the tokens only closing brackets are refused. -/
lemma closing_of_pushToken {token : Token} {stack : List Pending} (h : pushToken token stack = .error fault)
    (hrefused : fault.RefusesCloserAt span) : (∃ closer, token.lexeme = .closing closer) ∧ token.span = span := by
  unfold pushToken at h
  split at h
  case h_2 closer hclosing =>
    refine ⟨⟨closer, hclosing⟩, ?_⟩
    unfold closeTop at h
    split at h
    · cases h
      cases hrefused
      rfl
    · cases h
      cases hrefused
    · split at h <;> cases h
      cases hrefused
      rfl
  all_goals cases h

lemma not_refused_of_endOfTokens {stack : List Pending} (h : (endOfTokens stack).ending = .error fault) :
    ¬fault.RefusesCloserAt span := by
  intro hrefused
  unfold endOfTokens at h
  split at h
  · cases h
  · cases h
    cases hrefused
  · cases h
    cases hrefused

/-- Unless the next token is a fault, the machine goes on behind the form that is complete. -/
lemma resume_of_sound {behind : Tokens} (h : ∀ fault, behind ≠ .failed fault)
    (outcome : Option Form × List Pending) :
    resume outcome behind = Feed.prepend outcome.1.toList (run outcome.2 behind) := by
  rcases outcome with ⟨_ | f, stack⟩
  · rfl
  · exact handOut_of_sound _ h

lemma prepend_next_sound (ts : List Token) (token : Token) (behind : Tokens) (fault : Fault) :
    Feed.prepend ts (.next token behind) ≠ .failed fault := by
  intro h
  cases ts <;> cases h

/-- The machine refuses a closing bracket without regard to the tokens behind it. -/
lemma exists_refused_token {stack : List Pending} {feed : Tokens} (h : (run stack feed).ending = .error fault)
    (hrefused : fault.RefusesCloserAt span) (hfeed : feed.ending ≠ .error fault) :
    ∃ ts token behind, feed = Feed.prepend ts (.next token behind) ∧ (∃ closer, token.lexeme = .closing closer) ∧
      token.span = span ∧ ∀ behind', run stack (Feed.prepend ts (.next token behind')) = run stack feed := by
  induction feed generalizing stack with
  | done stop => exact absurd hrefused (not_refused_of_endOfTokens h)
  | failed fault' =>
    cases h
    exact absurd rfl hfeed
  | next token behind ih =>
    cases hpush : pushToken token stack with
    | error fault' =>
      have hrun (behind' : Tokens) : run stack (.next token behind') = .failed fault' := run_of_error hpush
      rw [hrun] at h
      obtain rfl : fault' = fault := Except.error.inj h
      obtain ⟨hclosing, hspan⟩ := closing_of_pushToken hpush hrefused
      exact ⟨[], token, behind, rfl, hclosing, hspan, fun behind' => by rw [Feed.prepend_nil, hrun, hrun]⟩
    | ok outcome =>
      have hrun (behind' : Tokens) : run stack (.next token behind') = resume outcome behind' := run_of_ok hpush
      -- A fault of the scanner behind the token would be the fault of the run.
      have hsound : ∀ fault', behind ≠ .failed fault' := by
        rintro fault' rfl
        rw [hrun, resume_failed] at h
        cases h
        exact hfeed rfl
      rw [hrun, resume_of_sound hsound, Feed.ending_prepend] at h
      obtain ⟨ts, closer, later, rfl, hclosing, hspan, hlater⟩ := ih h hfeed
      refine ⟨token :: ts, closer, later, rfl, hclosing, hspan, fun behind' => ?_⟩
      have hsound' := prepend_next_sound ts closer behind'
      rw [Feed.prepend_cons, hrun, hrun, resume_of_sound hsound, resume_of_sound hsound', hlater]

/-! ## The text up to a refused bracket -/

/-- A closing bracket is a token in front of every text. -/
lemma Scans.of_closing {t raw rest : Text} {closer : Closer} (h : Scans t (.closing closer) raw rest) (rest' : Text) :
    Scans (raw ++ rest') (.closing closer) raw rest' :=
  scans_iff.2 ⟨rfl, trivial, (scans_iff.1 h).2.2⟩

/-- Tokens that are taken in front of a text that is not empty are taken wherever that text stands, whatever follows
it. -/
lemma Takes.behind {p q : Position} {t front rest : Text} {ts : List Token} (h : Takes p t ts q (front ++ rest))
    (hfront : front ≠ []) : ∃ taken, t = taken ++ (front ++ rest) ∧ q = p.after taken ∧
      ∀ rest', Takes p (taken ++ (front ++ rest')) ts q (front ++ rest') := by
  obtain ⟨taken, ht, hq, hcut⟩ := h.cut
  refine ⟨taken, ht, hq, fun rest' => hcut _ fun c hc => .inr ?_⟩
  rwa [List.head?_append_of_ne_nil _ hfront] at hc ⊢

/-- A source with a refused closing bracket has the same forms and the same fault as every text that is the same up to
this bracket. -/
theorem exists_refused_closer {source : Text} (h : (forms source).ending = .error fault)
    (hrefused : fault.RefusesCloserAt span) : ∃ (front : Text) (closer : Closer) (behind : Text),
      source = front ++ (closer.text ++ behind) ∧ span = (Position.origin.after front).span closer.text ∧
      ∀ behind', forms (front ++ (closer.text ++ behind')) = forms source := by
  have hscanner : (tokens source).ending ≠ .error fault := fun hfault =>
    (not_refused_of_tokensFrom .origin source).of_error hfault span hrefused
  rw [forms, readForms_eq_run] at h
  obtain ⟨ts, token, later, hfeed, ⟨closer, hclosing⟩, hspan, hlater⟩ := exists_refused_token h hrefused hscanner
  have hitems : (tokens source).items = ts ++ token :: later.items := by rw [hfeed, Feed.items_prepend, Feed.items]
  obtain ⟨q, gap, behind, htakes, hgap, hplace, hscan, -⟩ := takes_in_front hitems
  rw [hclosing] at hscan
  have hraw : token.raw = closer.text := (scans_iff.1 hscan).2.2
  rw [← List.append_assoc] at htakes
  obtain ⟨taken, rfl, rfl, htaken⟩ := htakes.behind (List.append_ne_nil_of_right_ne_nil gap hscan.raw_ne_nil)
  refine ⟨taken ++ gap, closer, behind, ?_, ?_, fun behind' => ?_⟩
  · rw [← hraw, List.append_assoc, List.append_assoc]
  · rw [← hspan, hplace, hraw, Position.after_append]
  · -- What stands in front of the bracket is taken as before, then the bracket, and the machine stops there.
    have hcloser : Takes (Position.origin.after taken) (gap ++ (token.raw ++ behind')) [token] token.span.stop
        behind' := .next hgap hplace (hclosing ▸ hscan.of_closing behind') .nil
    have hboth := (htaken behind').tokensFrom
    rw [List.append_assoc, hcloser.tokensFrom] at hboth
    rw [forms, readForms_eq_run, forms, readForms_eq_run, ← hlater, List.append_assoc, ← hraw]
    exact congrArg (run []) hboth

/-- If the reader refuses a closing bracket of a source, then with any text appended to the source it hands out the same
forms, at the same places, and refuses the same bracket. -/
theorem forms_append_of_refused {source : Text} (h : (forms source).ending = .error fault)
    (hrefused : fault.RefusesCloserAt span) (more : Text) :
    (forms (source ++ more)).items = (forms source).items ∧ (forms (source ++ more)).ending = .error fault := by
  obtain ⟨front, closer, behind, htext, -, hforms⟩ := exists_refused_closer h hrefused
  have hsame : forms (source ++ more) = forms source := by
    rw [← hforms (behind ++ more)]
    conv_lhs => rw [htext, List.append_assoc, List.append_assoc]
  exact ⟨by rw [hsame], by rw [hsame, h]⟩

/-- A vector, and then a bracket that closes a vector where a list is open. What follows is no token, nor is what is
appended. -/
theorem forms_append_of_refused_sample :
    (forms "[] (] #x").ending = .error (.located (.mismatchedCloser [')'] [']']) ⟨⟨1, 5, 4⟩, ⟨1, 6, 5⟩⟩) ∧
      (forms ("[] (] #x".toList ++ ['"', '\\'])).items.map Form.bare = [.vector []] ∧
      (forms ("[] (] #x".toList ++ ['"', '\\'])).ending =
        .error (.located (.mismatchedCloser [')'] [']']) ⟨⟨1, 5, 4⟩, ⟨1, 6, 5⟩⟩) := by
  have htokens : tokens "[] (] #x" = Feed.prepend [⟨.opening .square, ['['], ⟨⟨1, 1, 0⟩, ⟨1, 2, 1⟩⟩⟩,
      ⟨.closing .square, [']'], ⟨⟨1, 2, 1⟩, ⟨1, 3, 2⟩⟩⟩, ⟨.opening .paren, ['('], ⟨⟨1, 4, 3⟩, ⟨1, 5, 4⟩⟩⟩,
      ⟨.closing .square, [']'], ⟨⟨1, 5, 4⟩, ⟨1, 6, 5⟩⟩⟩]
      (.failed (.located (.invalidToken "#x" "unsupported dispatch macro") ⟨⟨1, 7, 6⟩, ⟨1, 9, 8⟩⟩)) := by cbv
  have hforms : forms "[] (] #x" = .next (.compound .vector [] (some ⟨⟨1, 1, 0⟩, ⟨1, 3, 2⟩⟩))
      (.failed (.located (.mismatchedCloser [')'] [']']) ⟨⟨1, 5, 4⟩, ⟨1, 6, 5⟩⟩)) := by
    rw [forms, htokens, readForms_eq_run]
    rfl
  have hending := congrArg Feed.ending hforms
  obtain ⟨hitems, happended⟩ := forms_append_of_refused hending (.mismatched _ _) ['"', '\\']
  refine ⟨hending, ?_, happended⟩
  rw [hitems, hforms]
  rfl

end Bilisp
