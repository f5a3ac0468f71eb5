import Bilisp.Proofs.ConversionFaults
import Bilisp.Proofs.RunInvariants
import Bilisp.Proofs.TakenTokens

/-!
# Forms and the tokens that make them

A form is made of tokens in a row: an atom of one token, a compound form of its brackets and what its elements are made
of, a marked form of its marker and what the form behind it is made of (`Makes`). The machine does with these tokens
what it does with the form as a whole (`Makes.run`). The other way round, what stands on the stack is made of the
tokens read so far, so every form that the reader hands out is made of tokens it read (`makes_of_mem_readForms`).
-/

namespace Bilisp

/-! ## Forms made of tokens -/

/-- Whether a form is made of tokens. -/
inductive Makes : List Token → Form → Prop
  | atom {token : Token} {value : Atom} (hatom : token.lexeme.atom? = some value) :
    Makes [token] (.atom value (some token.span))
  | compound {first last : Token} {opener : Opener} {parts : List (List Token × Form)}
    (hfirst : first.lexeme = .opening opener) (hlast : last.lexeme = .closing opener.closer)
    (hparts : ∀ part ∈ parts, Makes part.1 part.2) :
    Makes (first :: (parts.flatMap Prod.fst ++ [last]))
      (.compound (opener.shape parts.length) (parts.map Prod.snd) (some ⟨first.span.start, last.span.stop⟩))
  | marked {token : Token} {marker : Marker} {ts : List Token} {f : Form} (hmarker : token.lexeme = .marker marker)
    (hinner : Makes ts f) : Makes (token :: ts) (marker.wrap token.span f)

/-- A form spans its tokens, from the first one to the last one. -/
lemma Makes.span {ts : List Token} {f : Form} (h : Makes ts f) : ∃ first last : Span,
    (ts.map Token.span).head? = some first ∧ (ts.map Token.span).getLast? = some last ∧
      f.span = some ⟨first.start, last.stop⟩ := by
  induction h with
  | @atom token value hatom => exact ⟨token.span, token.span, rfl, rfl, rfl⟩
  | @compound first last opener parts hfirst hlast hparts ih =>
    refine ⟨first.span, last.span, rfl, ?_, rfl⟩
    rw [← List.cons_append, List.map_append, List.getLast?_append]
    rfl
  | @marked token marker ts f hmarker hinner ih =>
    obtain ⟨first, last, hfirst, hlast, hspan⟩ := ih
    refine ⟨token.span, last, rfl, ?_, ?_⟩
    · rw [List.map_cons, List.getLast?_cons, hlast]
      rfl
    · rw [Marker.wrap, hspan]
      rfl

/-! ## What the machine does with the tokens of a form -/

/-- An open bracket takes in forms one by one. -/
lemma run_parts {parts : List (List Token × Form)} {opener : Opener} {place : Span} {stack : List Pending}
    (h : ∀ part ∈ parts, ∀ stack feed, run stack (Feed.prepend part.1 feed) = resume (attach part.2 stack) feed)
    (elements : List Form) (feed : Tokens) :
    run (.bracket opener place elements :: stack) (Feed.prepend (parts.flatMap Prod.fst) feed) =
      run (.bracket opener place ((parts.map Prod.snd).reverse ++ elements) :: stack) feed := by
  induction parts generalizing elements with
  | nil => rfl
  | cons part parts ih =>
    rw [List.forall_mem_cons] at h
    rw [List.flatMap_cons, Feed.prepend_append, h.1, attach, resume, ih h.2]
    simp

/-- The machine does with the tokens of a form what it does with a complete form. -/
theorem Makes.run {ts : List Token} {f : Form} (h : Makes ts f) (stack : List Pending) (feed : Tokens) :
    Bilisp.run stack (Feed.prepend ts feed) = resume (attach f stack) feed := by
  induction h generalizing stack feed with
  | atom hatom => exact run_of_ok (pushToken_atom hatom stack)
  | @compound first last opener parts hfirst hlast hparts ih =>
    rw [Feed.prepend_cons, run_of_ok (pushToken_opening hfirst stack), resume, Feed.prepend_append, run_parts ih,
      List.append_nil, Feed.prepend_cons, Feed.prepend_nil, run_of_ok (pushToken_closing hlast _ _ stack)]
    simp
  | @marked token marker ts f hmarker hinner ih =>
    rw [Feed.prepend_cons, run_of_ok (pushToken_marker hmarker stack), resume, ih]
    rfl

/-! ## What the stack is made of -/

/-- Whether what stands on the stack is made of tokens, of which no form is complete yet. -/
inductive Holds : List Token → List Pending → Prop
  | nil : Holds [] []
  | bracket {held : List Token} {stack : List Pending} {first : Token} {opener : Opener}
    {parts : List (List Token × Form)} (hstack : Holds held stack) (hfirst : first.lexeme = .opening opener)
    (hparts : ∀ part ∈ parts, Makes part.1 part.2) :
    Holds (held ++ first :: parts.flatMap Prod.fst)
      (.bracket opener first.span (parts.map Prod.snd).reverse :: stack)
  | mark {held : List Token} {stack : List Pending} {token : Token} {marker : Marker} (hstack : Holds held stack)
    (hmarker : token.lexeme = .marker marker) : Holds (held ++ [token]) (.mark marker token.span :: stack)

/-- Whether a step of the machine leaves things made of tokens: a complete form above the empty stack, or a stack. -/
def HoldsOutcome (held : List Token) (outcome : Option Form × List Pending) : Prop :=
  match outcome with
  | (some f, stack) => stack = [] ∧ Makes held f
  | (none, stack) => Holds held stack

lemma holds_attach {held ts : List Token} {stack : List Pending} {f : Form} (h : Holds held stack)
    (hf : Makes ts f) : HoldsOutcome (held ++ ts) (attach f stack) := by
  induction h generalizing ts f with
  | nil => exact ⟨rfl, hf⟩
  | @bracket held stack first opener parts hstack hfirst hparts ih =>
    have hparts' : ∀ part ∈ parts ++ [(ts, f)], Makes part.1 part.2 := by
      rw [List.forall_mem_append]
      exact ⟨hparts, List.forall_mem_singleton.2 hf⟩
    rw [attach]
    change Holds _ _
    simpa using Holds.bracket hstack hfirst hparts'
  | @mark held stack token marker hstack hmarker ih =>
    rw [List.append_assoc, attach]
    exact ih (.marked hmarker hf)

lemma holds_pushToken {held : List Token} {stack : List Pending} {token : Token}
    {outcome : Option Form × List Pending} (h : Holds held stack) (hpush : pushToken token stack = .ok outcome) :
    HoldsOutcome (held ++ [token]) outcome := by
  rcases pushToken_cases hpush with ⟨opener, hopener, rfl⟩ | ⟨marker, hmarker, rfl⟩ | ⟨value, hatom, rfl⟩ |
    ⟨opener, place, elements, below, hcloser, rfl, rfl⟩
  · exact @Holds.bracket held stack token opener [] h hopener (by simp)
  · exact Holds.mark h hmarker
  · exact holds_attach h (.atom hatom)
  · cases h with
    | @bracket held _ first _ parts hstack hfirst hparts =>
      have hwhole := holds_attach hstack (.compound hfirst hcloser hparts)
      simpa using hwhole

/-- The stack is made of tokens that come right in front of the tokens to come. -/
lemma runInvariant_holds (all : List Token) :
    RunInvariant (fun stack feed => ∃ earlier held, all = earlier ++ (held ++ feed.items) ∧ Holds held stack)
      (fun f => ∃ earlier ts later, all = earlier ++ (ts ++ later) ∧ Makes ts f) fun _ => True where
  done _ := fun _ _ => trivial
  failed _ := trivial
  refused _ _ := trivial
  taken {_ token behind outcome} h hpush := by
    obtain ⟨earlier, held, rfl, hholds⟩ := h
    have houtcome := holds_pushToken hholds hpush
    obtain ⟨completed, stack'⟩ := outcome
    cases completed with
    | none =>
      refine ⟨by simp, earlier, held ++ [token], ?_, houtcome⟩
      rw [List.append_assoc]
      rfl
    | some f =>
      obtain ⟨rfl, hmakes⟩ := houtcome
      refine ⟨fun g hg => ?_, earlier ++ (held ++ [token]), [], ?_, .nil⟩
      · obtain rfl : f = g := Option.some_inj.1 hg
        exact ⟨earlier, held ++ [token], behind.items, by simp [Feed.items], hmakes⟩
      · simp [Feed.items]

/-- A form that the reader hands out is made of some of the tokens that it read, which stand in a row. -/
theorem makes_of_mem_readForms {feed : Tokens} {f : Form} (h : f ∈ (readForms feed).items) :
    ∃ earlier ts later, feed.items = earlier ++ (ts ++ later) ∧ Makes ts f :=
  ((runInvariant_holds feed.items).readForms ⟨[], [], rfl, .nil⟩).1 f h

/-! ## Forms inside a form -/

/-- A form inside a form is made of some of its tokens, or it is the symbol that leads a marked form and has the place
of the marker. -/
theorem Makes.contains {ts : List Token} {f g : Form} (h : Makes ts f) (hg : f.Contains g) :
    (∃ us, us <:+: ts ∧ Makes us g) ∨
      ∃ token ∈ ts, ∃ marker inner, token.lexeme = .marker marker ∧
        g = .atom (.symbol marker.name) (some token.span) ∧ f.Contains (marker.wrap token.span inner) := by
  induction hg generalizing ts with
  | self f => exact .inl ⟨ts, List.infix_rfl, h⟩
  | @element shape elements span f' g hf' hg ih =>
    generalize hwhole : Form.compound shape elements span = whole at h ⊢
    -- what is found in the element is found in the whole
    have hlift : ∀ {us}, us <:+: ts → Makes us f' →
        (∃ us, us <:+: ts ∧ Makes us g) ∨
          ∃ token ∈ ts, ∃ marker inner, token.lexeme = .marker marker ∧
            g = .atom (.symbol marker.name) (some token.span) ∧ whole.Contains (marker.wrap token.span inner) := by
      intro us hus hmakes
      rcases ih hmakes with ⟨vs, hvs, hg⟩ | ⟨token, htoken, marker, inner, hmarker, hg, hcontains⟩
      · exact .inl ⟨vs, hvs.trans hus, hg⟩
      · exact .inr ⟨token, hus.subset htoken, marker, inner, hmarker, hg, hwhole ▸ .element hf' hcontains⟩
    cases h with
    | atom => cases hwhole
    | @compound first last opener parts hfirst hlast hparts =>
      cases hwhole
      obtain ⟨part, hpart, rfl⟩ := List.mem_map.1 hf'
      obtain ⟨before, behind, rfl⟩ := List.append_of_mem hpart
      refine hlift ⟨first :: before.flatMap Prod.fst, behind.flatMap Prod.fst ++ [last], ?_⟩ (hparts part hpart)
      simp
    | @marked token marker ts inner hmarker hinner =>
      obtain ⟨rfl, rfl, rfl⟩ := Form.compound.inj hwhole
      rcases List.mem_cons.1 hf' with rfl | hf'
      · cases hg
        exact .inr ⟨token, List.mem_cons_self, marker, inner, hmarker, rfl, .self _⟩
      · obtain rfl := List.mem_singleton.1 hf'
        exact hlift (List.infix_cons List.infix_rfl) hinner

end Bilisp
