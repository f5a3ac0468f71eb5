import Bilisp.Proofs.FirstTokens

/-!
# Tokens taken off a text

`Takes p t ts q rest` says that the tokens `ts`, with gaps in front of them, are taken off the text `t`, which begins
at `p`, and that `rest` is left, which begins at `q`. The scanner takes these tokens and no others
(`Takes.tokensFrom`, `takes_of_items`). The same tokens are taken if other text follows that may stand there
(`Takes.cut`), and at other places (`Takes.elsewhere`).
-/

namespace Bilisp

/-! ## Feeds -/

/-- A feed behind other items. -/
def Feed.prepend {α β : Type} (items : List α) (feed : Feed α β) : Feed α β := items.foldr .next feed

namespace Feed

variable {α β : Type}

@[simp] lemma prepend_nil (feed : Feed α β) : prepend [] feed = feed := rfl

@[simp] lemma prepend_cons (item : α) (items : List α) (feed : Feed α β) :
    prepend (item :: items) feed = .next item (prepend items feed) := rfl

@[simp] lemma prepend_append (items items' : List α) (feed : Feed α β) :
    prepend (items ++ items') feed = prepend items (prepend items' feed) := List.foldr_append

@[simp] lemma items_prepend (items : List α) (feed : Feed α β) : (prepend items feed).items = items ++ feed.items := by
  induction items with
  | nil => rfl
  | cons item items ih => rw [prepend_cons, Feed.items, ih, List.cons_append]

@[simp] lemma ending_prepend (items : List α) (feed : Feed α β) : (prepend items feed).ending = feed.ending := by
  induction items with
  | nil => rfl
  | cons item items ih => rw [prepend_cons, Feed.ending, ih]

lemma eq_next_of_items {feed : Feed α β} {item : α} {later : List α} (h : feed.items = item :: later) :
    ∃ rest, feed = .next item rest ∧ rest.items = later := by
  cases feed with
  | done closing => cases h
  | failed fault => cases h
  | next item' rest =>
    obtain ⟨rfl, hrest⟩ := List.cons.inj h
    exact ⟨rest, rfl, hrest⟩

end Feed

/-! ## Gaps -/

lemma splitIgnored_comment {body : Text} (h : '\n' ∉ body) (t : Text) :
    splitIgnored true (body ++ '\n' :: t) = (body ++ '\n' :: (splitIgnored false t).1, (splitIgnored false t).2) := by
  induction body with
  | nil => rfl
  | cons c body ih =>
    rw [List.mem_cons, not_or] at h
    have hc : (c != '\n') = true := by simpa using Ne.symm h.1
    rw [List.cons_append, splitIgnored, hc, ih h.2]
    rfl

namespace IsGap

variable {gap : Text} (h : IsGap false gap)

include h

lemma splitIgnored_append (t : Text) :
    splitIgnored false (gap ++ t) = (gap ++ (splitIgnored false t).1, (splitIgnored false t).2) := by
  induction h with
  | nil => rfl
  | separator hc ht ih =>
    rw [List.cons_append, splitIgnored, if_pos hc, ih]
    rfl
  | comment hbody ht ih =>
    rw [List.cons_append, List.append_assoc, List.cons_append, splitIgnored, if_neg (by decide), if_pos rfl,
      splitIgnored_comment hbody, ih]
    simp
  | openComment hbody hend => cases hend

/-- The scanner goes over a gap. -/
lemma tokensFrom_append (t : Text) (p : Position) : tokensFrom p (gap ++ t) = tokensFrom (p.after gap) t := by
  rw [tokensFrom_eq, tokensFrom_eq (p.after gap), h.splitIgnored_append, Position.after_append]

/-- A gap that is not empty may stand behind every token. -/
lemma mayReplace (hne : gap ≠ []) (t rest : Text) : Text.MayReplace (gap ++ t) rest := by
  cases h with
  | nil => exact absurd rfl hne
  | separator hc ht =>
    rintro _ ⟨⟩
    exact .inl (by rw [endsToken, hc, Bool.true_or])
  | comment hbody ht =>
    rintro _ ⟨⟩
    exact .inl (by decide)
  | openComment hbody hend => cases hend

end IsGap

/-! ## Tokens in turn -/

/-- Whether tokens, with gaps in front of them, are taken in turn off a text that begins at a position, and which text
is left and where it begins. -/
inductive Takes : Position → Text → List Token → Position → Text → Prop
  | nil {p : Position} {t : Text} : Takes p t [] p t
  | next {p q : Position} {gap t rest : Text} {token : Token} {ts : List Token} (hgap : IsGap false gap)
    (hspan : token.span = (p.after gap).span token.raw) (hscan : Scans (token.raw ++ t) token.lexeme token.raw t)
    (hrest : Takes token.span.stop t ts q rest) : Takes p (gap ++ (token.raw ++ t)) (token :: ts) q rest

/-- The first token of a text stands behind a gap. -/
lemma tokensFrom_eq_next {p : Position} {t : Text} {token : Token} {behind : Tokens}
    (h : tokensFrom p t = .next token behind) : ∃ gap t', t = gap ++ (token.raw ++ t') ∧ IsGap false gap ∧
      token.span = (p.after gap).span token.raw ∧ Scans (token.raw ++ t') token.lexeme token.raw t' ∧
      behind = tokensFrom token.span.stop t' := by
  have hsplit := splitIgnored_append false t
  have hgap := isGap_splitIgnored t
  rw [tokensFrom_eq] at h
  cases hbehind : (splitIgnored false t).2 with
  | nil =>
    rw [hbehind] at h
    cases h
  | cons c tail =>
    rw [hbehind] at h hsplit hgap
    rw [tokensAt] at h
    cases hscan : scanToken c tail with
    | rejected lead flagged cause =>
      rw [hscan] at h
      cases h
    | pastEnd =>
      rw [hscan] at h
      cases h
    | token lexeme raw t' =>
      rw [hscan] at h
      cases h
      obtain ⟨hsep, hsemi⟩ := splitIgnored_front hbehind
      have htaken := (scanToken_split hscan).1
      refine ⟨_, t', ?_, hgap, rfl, ⟨c, tail, htaken, hsep, hsemi, hscan⟩, rfl⟩
      rw [htaken, hsplit]

lemma Scans.raw_ne_nil {t raw rest : Text} {l : Lexeme} (h : Scans t l raw rest) : raw ≠ [] := by
  obtain ⟨c, tail, -, -, -, hscan⟩ := h
  exact List.length_pos_iff.1 (scanToken_split hscan).2

namespace Takes

variable {p q : Position} {t u : Text} {ts : List Token}

/-- What is taken off a text are its tokens, and the scanner goes on with what is left. -/
theorem tokensFrom (h : Takes p t ts q u) : Bilisp.tokensFrom p t = Feed.prepend ts (Bilisp.tokensFrom q u) := by
  induction h with
  | nil => rfl
  | @next p q gap t u token ts hgap hspan hscan hrest ih =>
    obtain ⟨lexeme, raw, span⟩ := token
    obtain rfl : span = (p.after gap).span raw := hspan
    rw [hgap.tokensFrom_append, tokensFrom_of_scans hscan, Feed.prepend_cons, ← ih]
    rfl

/-- What is left is what stands behind the text of the tokens, which are also taken in front of other text that may
stand there. -/
theorem cut (h : Takes p t ts q u) : ∃ taken, t = taken ++ u ∧ q = p.after taken ∧
    ∀ u', u'.MayReplace u → Takes p (taken ++ u') ts q u' := by
  induction h with
  | nil => exact ⟨[], rfl, rfl, fun u' _ => .nil⟩
  | @next p q gap t u token ts hgap hspan hscan hrest ih =>
    obtain ⟨taken, rfl, hq, hcut⟩ := ih
    refine ⟨gap ++ (token.raw ++ taken), by simp, ?_, fun u' hu => ?_⟩
    · rw [hq, hspan, Position.after_append, Position.after_append]
      rfl
    · rw [List.append_assoc, List.append_assoc]
      exact .next hgap hspan (hscan.before (mayReplace_append taken u u' hu)) (hcut u' hu)

end Takes

/-- The first tokens of a text are taken off it. -/
theorem takes_of_items {p : Position} {t : Text} {ts later : List Token}
    (h : (tokensFrom p t).items = ts ++ later) : ∃ q rest, Takes p t ts q rest := by
  induction ts generalizing p t with
  | nil => exact ⟨p, t, .nil⟩
  | cons token ts ih =>
    obtain ⟨behind, hfeed, hitems⟩ := Feed.eq_next_of_items h
    obtain ⟨gap, t', rfl, hgap, hspan, hscan, rfl⟩ := tokensFrom_eq_next hfeed
    obtain ⟨q, rest, hrest⟩ := ih hitems
    exact ⟨q, rest, .next hgap hspan hscan hrest⟩

/-- A token of a text stands behind a gap, where the tokens in front of it are taken off. -/
lemma takes_in_front {p : Position} {t : Text} {ts later : List Token} {token : Token}
    (h : (tokensFrom p t).items = ts ++ token :: later) : ∃ q gap behind,
      Takes p t ts q (gap ++ (token.raw ++ behind)) ∧ IsGap false gap ∧ token.span = (q.after gap).span token.raw ∧
      Scans (token.raw ++ behind) token.lexeme token.raw behind ∧ (tokensFrom token.span.stop behind).items = later := by
  obtain ⟨q, u, htakes⟩ := takes_of_items h
  rw [htakes.tokensFrom, Feed.items_prepend] at h
  obtain ⟨rest, hfeed, hitems⟩ := Feed.eq_next_of_items (List.append_cancel_left h)
  obtain ⟨gap, behind, rfl, hgap, hspan, hscan, rfl⟩ := tokensFrom_eq_next hfeed
  exact ⟨q, gap, behind, htakes, hgap, hspan, hscan, hitems⟩

/-! ## Other places -/

/-- What a token is apart from its place. -/
def Token.content (token : Token) : Lexeme × Text := (token.lexeme, token.raw)

/-- The same tokens are taken wherever the text begins. -/
theorem Takes.elsewhere {p q : Position} {t rest : Text} {ts : List Token} (h : Takes p t ts q rest)
    (p' : Position) : ∃ ts' q', Takes p' t ts' q' rest ∧ ts'.map Token.content = ts.map Token.content := by
  induction h generalizing p' with
  | nil => exact ⟨[], p', .nil, rfl⟩
  | @next p q gap t rest token ts hgap hspan hscan hrest ih =>
    obtain ⟨ts', q', hts, hcontent⟩ := ih ((p'.after gap).after token.raw)
    have hmoved := @Takes.next p' q' gap t rest ⟨token.lexeme, token.raw, (p'.after gap).span token.raw⟩ ts' hgap rfl
      hscan hts
    refine ⟨_, q', hmoved, ?_⟩
    rw [List.map_cons, List.map_cons, hcontent]
    rfl

end Bilisp
