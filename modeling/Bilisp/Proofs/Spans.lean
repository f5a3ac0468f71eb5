import Bilisp.Node.OfForm
import Mathlib.Tactic.Common

/-!
# Spans play no part in conversions

Changing the spans of a form changes nothing in the node that it is converted to, and a fault only in the spans
it shows (`toNode_mapSpan`). So two forms that differ in their spans give the same node.
-/

namespace Bilisp

/-- Induction on forms, in which a compound form may use what is known about its elements. -/
@[elab_as_elim]
theorem Form.inductionOn {motive : Form → Prop} (f : Form) (atom : ∀ value span, motive (.atom value span))
    (compound : ∀ shape elements span, (∀ f ∈ elements, motive f) → motive (.compound shape elements span)) :
    motive f :=
  match f with
  | .atom value span => atom value span
  | .compound shape elements span =>
    compound shape elements span fun f _ => Form.inductionOn f atom compound
termination_by sizeOf f
decreasing_by
  next hf =>
  have := List.sizeOf_lt_of_mem hf
  simp only [Form.compound.sizeOf_spec]
  omega

mutual

/-- The form with all its spans changed. -/
def Form.mapSpan (φ : Option Span → Option Span) : Form → Form
  | .atom value span => .atom value (φ span)
  | .compound shape elements span => .compound shape (mapSpans φ elements) (φ span)

/-- Forms with all their spans changed. -/
def Form.mapSpans (φ : Option Span → Option Span) : List Form → List Form
  | [] => []
  | f :: rest => mapSpan φ f :: mapSpans φ rest

end

/-- What a message shows, with all its spans changed. -/
def Culprit.mapSpan (φ : Option Span → Option Span) : Culprit → Culprit
  | .form f => .form (f.mapSpan φ)
  | culprit => culprit

/-- A cause with all its spans changed. -/
def Cause.mapSpan (φ : Option Span → Option Span) : Cause → Cause
  | .wrongStructure kind culprit problem => .wrongStructure kind (culprit.mapSpan φ) problem
  | .wrongCount kind culprit expected found => .wrongCount kind (culprit.mapSpan φ) expected found
  | cause => cause

/-- A fault with all its spans changed. -/
def Fault.mapSpan (φ : Option Span → Option Span) : Fault → Fault
  | .diagnostic ⟨cause, span⟩ => .diagnostic ⟨cause.mapSpan φ, φ span⟩
  | fault => fault

section

variable {φ : Option Span → Option Span}

@[simp] lemma length_mapSpans (forms : List Form) : (Form.mapSpans φ forms).length = forms.length := by
  induction forms with
  | nil => rfl
  | cons f forms ih => rw [Form.mapSpans, List.length_cons, List.length_cons, ih]

@[simp] lemma isEmpty_mapSpans (forms : List Form) : (Form.mapSpans φ forms).isEmpty = forms.isEmpty := by
  cases forms <;> rfl

@[simp] lemma span_mapSpan (f : Form) : (f.mapSpan φ).span = φ f.span := by
  cases f <;> rfl

@[simp] lemma isCallable_mapSpan (f : Form) : (f.mapSpan φ).isCallable = f.isCallable := by
  cases f with
  | atom value span => cases value <;> rfl
  | compound shape elements span => rfl

@[simp] lemma head?_mapSpan (f : Form) : (f.mapSpan φ).head? = f.head? := by
  cases f with
  | atom value span => rfl
  | compound shape elements span =>
    cases shape with
    | list =>
      cases elements with
      | nil => rfl
      | cons first rest =>
        cases first with
        | atom value place => cases value <;> rfl
        | compound shape elements place => rfl
    | vector => rfl
    | map => rfl
    | set => rfl

@[simp] lemma mapSpan_structureOf (kind : Text) (f : Form) (problem : Text) :
    (Fault.structureOf kind f problem).mapSpan φ = Fault.structureOf kind (f.mapSpan φ) problem := by
  simp [Fault.structureOf, Fault.mapSpan, Cause.mapSpan, Culprit.mapSpan]

@[simp] lemma mapSpan_countOf (kind : Text) (f : Form) (expected : Text) (found : Nat) :
    (Fault.countOf kind f expected found).mapSpan φ = Fault.countOf kind (f.mapSpan φ) expected found := by
  simp [Fault.countOf, Fault.mapSpan, Cause.mapSpan, Culprit.mapSpan]

@[simp] lemma mapSpan_oddCount (kind : Text) (f : Form) (count : Nat) :
    (oddCount kind f count).mapSpan φ = oddCount kind (f.mapSpan φ) count := mapSpan_countOf _ _ _ _

section

variable {α β : Type}

@[simp] lemma mapError_pure (g : Fault → Fault) (a : α) : (pure a : Except Fault α).mapError g = pure a := rfl

@[simp] lemma mapError_throw (g : Fault → Fault) (fault : Fault) :
    (throw fault : Except Fault α).mapError g = throw (g fault) := rfl

@[simp] lemma mapError_map (g : Fault → Fault) (k : α → β) (x : Except Fault α) :
    (k <$> x).mapError g = k <$> x.mapError g := by
  cases x <;> rfl

@[simp] lemma mapError_bind (g : Fault → Fault) (x : Except Fault α) (k : α → Except Fault β) :
    (x >>= k).mapError g = x.mapError g >>= fun a => (k a).mapError g := by
  cases x <;> rfl

end

lemma atomNode_mapSpan (value : Atom) (span : Option Span) :
    atomNode value (φ span) = (atomNode value span).mapError (Fault.mapSpan φ) := by
  cases value with
  | symbol name =>
    simp only [atomNode]
    split
    · rfl
    · rw [Except.mapError, mapSpan_structureOf]
      rfl
  | character text =>
    simp only [atomNode]
    split <;> rfl
  | keyword name => rfl
  | string text => rfl
  | number value => rfl
  | nil => rfl
  | boolean truth => rfl

/-! ## Lists of forms -/

/-- Whether changing the spans of a form, or of the forms inside it, changes only the spans of the fault that
the conversion may have. -/
structure Form.Commutes (φ : Option Span → Option Span) (f : Form) : Prop where
  node : ∀ top, (f.mapSpan φ).toNode top = (f.toNode top).mapError (Fault.mapSpan φ)
  quoted : (f.mapSpan φ).toQuotedNode = f.toQuotedNode.mapError (Fault.mapSpan φ)
  elements : ∀ shape elements span, f = .compound shape elements span →
    toNodes (mapSpans φ elements) = (toNodes elements).mapError (Fault.mapSpan φ)

variable {forms : List Form} (h : ∀ f ∈ forms, f.Commutes φ)

include h

lemma toNodes_mapSpans :
    Form.toNodes (Form.mapSpans φ forms) = (Form.toNodes forms).mapError (Fault.mapSpan φ) := by
  induction forms with
  | nil => rfl
  | cons f rest ih =>
    have hrest := ih fun g hg => h g (List.mem_cons_of_mem _ hg)
    simp [Form.mapSpans, Form.toNodes, (h f List.mem_cons_self).node, hrest]

lemma toTopNodes_mapSpans :
    Form.toTopNodes (Form.mapSpans φ forms) = (Form.toTopNodes forms).mapError (Fault.mapSpan φ) := by
  induction forms with
  | nil => rfl
  | cons f rest ih =>
    have hrest := ih fun g hg => h g (List.mem_cons_of_mem _ hg)
    simp [Form.mapSpans, Form.toTopNodes, (h f List.mem_cons_self).node, hrest]

lemma toQuotedNodes_mapSpans :
    Form.toQuotedNodes (Form.mapSpans φ forms) = (Form.toQuotedNodes forms).mapError (Fault.mapSpan φ) := by
  induction forms with
  | nil => rfl
  | cons f rest ih =>
    have hrest := ih fun g hg => h g (List.mem_cons_of_mem _ hg)
    simp [Form.mapSpans, Form.toQuotedNodes, (h f List.mem_cons_self).quoted, hrest]

/-! ## Special forms -/

attribute [local simp] Form.mapSpan Form.mapSpans Form.toSpecialNode

omit h in
lemma Form.Commutes.tail {f : Form} (h : ∀ g ∈ f :: forms, g.Commutes φ) : ∀ g ∈ forms, g.Commutes φ :=
  fun g hg => h g (List.mem_cons_of_mem _ hg)

/-- The special forms that convert all their parts in the same way. -/
lemma mapSpan_uniform (top : Bool) (whole head : Form) {special : SpecialForm}
    (hspecial : special ∈ [.sequence, .tuple, .range, .importing, .using, .exporting, .ascription, .curly,
      .conjunction, .disjunction, .splicing]) :
    Form.toSpecialNode top (whole.mapSpan φ) special (Form.mapSpans φ (head :: forms)) =
      (Form.toSpecialNode top whole special (head :: forms)).mapError (Fault.mapSpan φ) := by
  have hnodes := toNodes_mapSpans h
  simp only [List.mem_cons, List.not_mem_nil, or_false] at hspecial
  rcases hspecial with rfl | rfl | rfl | rfl | rfl | rfl | rfl | rfl | rfl | rfl | rfl
  all_goals simp only [Form.mapSpans, Form.toSpecialNode, isEmpty_mapSpans, length_mapSpans, hnodes]
  all_goals try split
  all_goals simp

/-- The special forms that convert one part, or one part and then the others. -/
lemma mapSpan_headed (top : Bool) (whole head : Form) {special : SpecialForm}
    (hspecial : special = .unquoting ∨ (∃ name, special = .quoting name) ∨ special = .subscript ∨
      special = .moduleBlock) :
    Form.toSpecialNode top (whole.mapSpan φ) special (Form.mapSpans φ (head :: forms)) =
      (Form.toSpecialNode top whole special (head :: forms)).mapError (Fault.mapSpan φ) := by
  cases forms with
  | nil => rcases hspecial with rfl | ⟨name, rfl⟩ | rfl | rfl <;> simp
  | cons f forms =>
    have hf := (h f List.mem_cons_self).node false
    have hnodes := toNodes_mapSpans (Form.Commutes.tail h)
    have htop := toTopNodes_mapSpans (Form.Commutes.tail h)
    rcases hspecial with rfl | ⟨name, rfl⟩ | rfl | rfl
    · cases forms <;> simp [hf]
    · cases forms <;> simp [hf]
    · simp [hf, hnodes]
    · simp [hf, htop]

lemma mapSpan_conditional (top : Bool) (whole head : Form) :
    Form.toSpecialNode top (whole.mapSpan φ) .conditional (Form.mapSpans φ (head :: forms)) =
      (Form.toSpecialNode top whole .conditional (head :: forms)).mapError (Fault.mapSpan φ) := by
  match forms with
  | [] => simp
  | [_] => simp
  | [c, f] => simp [(h c (by simp)).node, (h f (by simp)).node]
  | [c, f, g] =>
    simp [(h c (by simp)).node, (h f (by simp)).node, (h g (by simp)).node]
  | _ :: _ :: _ :: _ :: _ => simp

lemma mapSpan_definition (top : Bool) (whole head : Form) :
    Form.toSpecialNode top (whole.mapSpan φ) .definition (Form.mapSpans φ (head :: forms)) =
      (Form.toSpecialNode top whole .definition (head :: forms)).mapError (Fault.mapSpan φ) := by
  match forms with
  | [] => simp
  | [_] => simp
  | [f, g] =>
    simp only [Form.mapSpans, Form.toSpecialNode, (h f (by simp)).node, (h g (by simp)).node]
    split <;> simp
  | _ :: _ :: _ :: _ => simp

lemma mapSpan_access (top : Bool) (whole head : Form) :
    Form.toSpecialNode top (whole.mapSpan φ) .access (Form.mapSpans φ (head :: forms)) =
      (Form.toSpecialNode top whole .access (head :: forms)).mapError (Fault.mapSpan φ) := by
  match forms with
  | [] => simp
  | [_] => simp
  | [f, .compound _ _ _] => simp
  | [f, .atom value place] =>
    cases value with
    | symbol name =>
      simp only [Form.mapSpans, Form.mapSpan, Form.toSpecialNode, (h f (by simp)).node]
      split <;> simp
    | _ => simp
  | f :: g :: i :: rest =>
    simp only [Form.mapSpans]
    rw [Form.toSpecialNode, Form.toSpecialNode]
    all_goals simp

lemma mapSpan_letBlock (top : Bool) (whole head : Form) :
    Form.toSpecialNode top (whole.mapSpan φ) .letBlock (Form.mapSpans φ (head :: forms)) =
      (Form.toSpecialNode top whole .letBlock (head :: forms)).mapError (Fault.mapSpan φ) := by
  match forms with
  | [] => simp
  | .atom _ _ :: _ => simp
  | .compound .vector bindings place :: body =>
    have hbindings := (h _ List.mem_cons_self).elements _ _ _ rfl
    simp only [Form.mapSpans, Form.mapSpan, Form.toSpecialNode, length_mapSpans, hbindings,
      toNodes_mapSpans (Form.Commutes.tail h)]
    split <;> simp
  | .compound .list _ _ :: _ => simp
  | .compound .map _ _ :: _ => simp
  | .compound .set _ _ :: _ => simp

/-- The rule of named functions, which is also a rule of functions. -/
lemma mapSpan_namedFunction (top : Bool) (whole head : Form) :
    Form.toSpecialNode top (whole.mapSpan φ) .namedFunction (Form.mapSpans φ (head :: forms)) =
      (Form.toSpecialNode top whole .namedFunction (head :: forms)).mapError (Fault.mapSpan φ) := by
  match forms with
  | [] => simp
  | [_] => simp
  | f :: .atom _ _ :: _ =>
    simp [(h f List.mem_cons_self).node]
  | f :: .compound .vector params place :: body =>
    have hparams := (Form.Commutes.tail h _ List.mem_cons_self).elements _ _ _ rfl
    simp [(h f List.mem_cons_self).node, hparams, toNodes_mapSpans (Form.Commutes.tail (Form.Commutes.tail h))]
  | f :: .compound .list _ _ :: _ =>
    simp [(h f List.mem_cons_self).node]
  | f :: .compound .map _ _ :: _ =>
    simp [(h f List.mem_cons_self).node]
  | f :: .compound .set _ _ :: _ =>
    simp [(h f List.mem_cons_self).node]

omit h in
lemma mapSpan_ne_vector {f : Form} (hf : ∀ elements span, f ≠ .compound .vector elements span) :
    ∀ elements span, f.mapSpan φ ≠ .compound .vector elements span := by
  intro elements span heq
  cases f with
  | atom value place => cases heq
  | compound shape elements' place =>
    obtain ⟨rfl, -, -⟩ := Form.compound.inj heq
    exact hf elements' place rfl

lemma mapSpan_function (top : Bool) (whole head : Form) :
    Form.toSpecialNode top (whole.mapSpan φ) .function (Form.mapSpans φ (head :: forms)) =
      (Form.toSpecialNode top whole .function (head :: forms)).mapError (Fault.mapSpan φ) := by
  match forms with
  | [] => simp
  | f :: rest =>
    by_cases hvector : ∃ params place, f = .compound .vector params place
    · obtain ⟨params, place, rfl⟩ := hvector
      have hparams := (h _ List.mem_cons_self).elements _ _ _ rfl
      simp [hparams, toNodes_mapSpans (Form.Commutes.tail h)]
    · have hf : ∀ params place, f ≠ .compound .vector params place := by simpa using hvector
      have hf' := mapSpan_ne_vector (φ := φ) hf
      have hname := (h f List.mem_cons_self).node false
      match rest with
      | [] =>
        simp only [Form.mapSpans]
        rw [Form.toSpecialNode, Form.toSpecialNode]
        · simp
        · exact hf
        · exact hf'
      | g :: body =>
        have hbody := toNodes_mapSpans (Form.Commutes.tail (Form.Commutes.tail h))
        by_cases hparams : ∃ params place, g = .compound .vector params place
        · obtain ⟨params, place, rfl⟩ := hparams
          have hnodes := (Form.Commutes.tail h _ List.mem_cons_self).elements _ _ _ rfl
          simp only [Form.mapSpans, Form.mapSpan]
          rw [Form.toSpecialNode, Form.toSpecialNode]
          · simp [hname, hnodes, hbody]
          · exact hf
          · exact hf'
        · have hg : ∀ params place, g ≠ .compound .vector params place := by simpa using hparams
          have hg' := mapSpan_ne_vector (φ := φ) hg
          simp only [Form.mapSpans]
          rw [Form.toSpecialNode, Form.toSpecialNode]
          · simp [hname]
          · exact hf
          · exact hg
          · exact hf'
          · exact hg'

/-- Special forms convert their parts in order, so changing spans goes through them. -/
lemma mapSpan_special (top : Bool) (whole head : Form) (special : SpecialForm) :
    Form.toSpecialNode top (whole.mapSpan φ) special (Form.mapSpans φ (head :: forms)) =
      (Form.toSpecialNode top whole special (head :: forms)).mapError (Fault.mapSpan φ) := by
  cases special with
  | conditional => exact mapSpan_conditional h top whole head
  | definition => exact mapSpan_definition h top whole head
  | access => exact mapSpan_access h top whole head
  | letBlock => exact mapSpan_letBlock h top whole head
  | namedFunction => exact mapSpan_namedFunction h top whole head
  | function => exact mapSpan_function h top whole head
  | unquoting => exact mapSpan_headed h top whole head (.inl rfl)
  | quoting name => exact mapSpan_headed h top whole head (.inr (.inl ⟨name, rfl⟩))
  | subscript => exact mapSpan_headed h top whole head (.inr (.inr (.inl rfl)))
  | moduleBlock => exact mapSpan_headed h top whole head (.inr (.inr (.inr rfl)))
  | _ => exact mapSpan_uniform h top whole head (by simp)

end

/-! ## Forms -/

section

variable {name : Text} (place : Option Span) (args : List Form) (span : Option Span)

/-- In quoted mode a list that a symbol leads is a quotation, a tuple or an unevaluated expression. -/
lemma toQuotedNode_raw (hquote : name ≠ "quote".toList) (htuple : name ≠ "tuple".toList) :
    (Form.compound .list (.atom (.symbol name) place :: args) span).toQuotedNode =
      Node.raw (escapeSymbol name) <$> Form.toQuotedNodes args := by
  match args with
  | [inner] => rw [Form.toQuotedNode, if_neg hquote, if_neg htuple, bind_pure_comp]
  | [] => rw [Form.toQuotedNode, if_neg hquote, if_neg htuple, bind_pure_comp]; exact nofun
  | _ :: _ :: _ => rw [Form.toQuotedNode, if_neg hquote, if_neg htuple, bind_pure_comp]; exact nofun

lemma toQuotedNode_tuple :
    (Form.compound .list (.atom (.symbol "tuple") place :: args) span).toQuotedNode =
      Node.tuple <$> Form.toQuotedNodes args := by
  match args with
  | [inner] => rw [Form.toQuotedNode, if_neg (by decide), if_pos rfl, bind_pure_comp]
  | [] => rw [Form.toQuotedNode, if_neg (by decide), if_pos rfl, bind_pure_comp]; exact nofun
  | _ :: _ :: _ => rw [Form.toQuotedNode, if_neg (by decide), if_pos rfl, bind_pure_comp]; exact nofun

lemma toQuotedNode_quote (inner : Form) :
    (Form.compound .list [.atom (.symbol "quote") place, inner] span).toQuotedNode = inner.toNode false := by
  rw [Form.toQuotedNode, if_pos rfl]

lemma toQuotedNode_quote_ne (h : args.length ≠ 1) :
    (Form.compound .list (.atom (.symbol "quote") place :: args) span).toQuotedNode =
      throw (.countOf "quote" (.compound .list (.atom (.symbol "quote") place :: args) span) "2"
        (args.length + 1)) := by
  rw [Form.toQuotedNode, if_pos rfl]
  rintro inner rfl
  exact h rfl

end

lemma mapSpan_quotedList {φ : Option Span → Option Span} {elements : List Form}
    (h : ∀ f ∈ elements, f.Commutes φ) (span : Option Span) :
    ((Form.compound .list elements span).mapSpan φ).toQuotedNode =
      (Form.compound .list elements span).toQuotedNode.mapError (Fault.mapSpan φ) := by
  have hnodes := toQuotedNodes_mapSpans h
  match elements with
  | [] => rfl
  | .compound shape parts place :: args =>
    simp only [Form.mapSpan, Form.mapSpans] at hnodes ⊢
    simp [Form.toQuotedNode, hnodes]
  | .atom value place :: args =>
    have hargs := toQuotedNodes_mapSpans (Form.Commutes.tail h)
    cases value with
    | symbol name =>
      rw [Form.mapSpan, Form.mapSpans, Form.mapSpan]
      by_cases hquote : name = "quote".toList
      · subst hquote
        by_cases hlength : args.length = 1
        · obtain ⟨inner, rfl⟩ := List.length_eq_one_iff.1 hlength
          rw [Form.mapSpans, Form.mapSpans, toQuotedNode_quote, toQuotedNode_quote]
          exact (h inner (by simp)).node false
        · rw [toQuotedNode_quote_ne _ _ _ hlength, toQuotedNode_quote_ne _ _ _ (by simpa using hlength)]
          simp [Form.mapSpan, Form.mapSpans]
      · by_cases htuple : name = "tuple".toList
        · subst htuple
          rw [toQuotedNode_tuple, toQuotedNode_tuple, hargs, mapError_map]
        · rw [toQuotedNode_raw _ _ _ hquote htuple, toQuotedNode_raw _ _ _ hquote htuple, hargs, mapError_map]
    | _ =>
      simp only [Form.mapSpan, Form.mapSpans] at hnodes ⊢
      simp [Form.toQuotedNode, hnodes]

lemma mapSpan_quotedAtom {φ : Option Span → Option Span} (value : Atom) (span : Option Span) :
    ((Form.atom value span).mapSpan φ).toQuotedNode =
      (Form.atom value span).toQuotedNode.mapError (Fault.mapSpan φ) := by
  have hatom := atomNode_mapSpan (φ := φ) value span
  cases value with
  | keyword name => rw [Form.mapSpan, Form.toQuotedNode, Form.toQuotedNode, mapError_pure]
  | _ =>
    rw [Form.mapSpan, Form.toQuotedNode, Form.toQuotedNode]
    · exact hatom
    · exact nofun
    · exact nofun

lemma mapSpan_list {φ : Option Span → Option Span} {elements : List Form}
    (h : ∀ f ∈ elements, f.Commutes φ) (span : Option Span) (top : Bool) :
    ((Form.compound .list elements span).mapSpan φ).toNode top =
      ((Form.compound .list elements span).toNode top).mapError (Fault.mapSpan φ) := by
  match elements with
  | [] => rfl
  | first :: args =>
    have hwhole : (Form.mapSpan φ (.compound .list (first :: args) span)).head? = _ := head?_mapSpan _
    have hspecial := mapSpan_special (Form.Commutes.tail h) top (.compound .list (first :: args) span) first
    have hfirst := (h first List.mem_cons_self).node false
    have hargs := toNodes_mapSpans (Form.Commutes.tail h)
    have hquoted := toQuotedNodes_mapSpans (Form.Commutes.tail h)
    simp only [Form.mapSpan, Form.mapSpans] at hwhole hspecial ⊢
    rw [Form.toNode, Form.toNode]
    simp only [hwhole]
    cases hhead : (Form.compound .list (first :: args) span).head? with
    | none =>
      cases hcall : first.isCallable <;> simp [hcall, hfirst, hargs, Form.mapSpan, Form.mapSpans]
    | some name =>
      cases hname : SpecialForm.ofName? name with
      | some special => simp [hname, hspecial]
      | none =>
        by_cases hmacroCall : name.head? = some '@' ∧ 1 < name.length
        · simp [hname, hmacroCall, hquoted]
        · simp [hname, hmacroCall, hfirst, hargs]

theorem commutes (φ : Option Span → Option Span) (f : Form) : f.Commutes φ := by
  induction f using Form.inductionOn with
  | atom value span => exact ⟨fun top => atomNode_mapSpan value span, mapSpan_quotedAtom value span, nofun⟩
  | compound shape elements span h =>
    have hnodes := toNodes_mapSpans h
    have hquoted := toQuotedNodes_mapSpans h
    refine ⟨fun top => ?_, ?_, fun shape' elements' span' heq => ?_⟩
    · cases shape with
      | list => exact mapSpan_list h span top
      | vector => simp [Form.mapSpan, Form.toNode, hnodes]
      | set => simp [Form.mapSpan, Form.toNode, hnodes]
      | map =>
        simp only [Form.mapSpan, Form.toNode, length_mapSpans, hnodes]
        split <;> simp [Form.mapSpan]
    · cases shape with
      | list => exact mapSpan_quotedList h span
      | vector => simp [Form.mapSpan, Form.toQuotedNode, hquoted]
      | set => simp [Form.mapSpan, Form.toQuotedNode, hquoted]
      | map =>
        simp only [Form.mapSpan, Form.toQuotedNode, length_mapSpans, hquoted]
        split <;> simp [Form.mapSpan]
    · cases heq
      exact hnodes

/-- Changing the spans of a form changes only the spans of the fault that its conversion may have. -/
theorem toNode_mapSpan (φ : Option Span → Option Span) (f : Form) (top : Bool) :
    (f.mapSpan φ).toNode top = (f.toNode top).mapError (Fault.mapSpan φ) := (commutes φ f).node top

mutual

lemma bare_eq_mapSpan (f : Form) : f.bare = f.mapSpan fun _ => none := by
  cases f with
  | atom value span => rfl
  | compound shape elements span => rw [Form.bare, Form.mapSpan, bareAll_eq_mapSpans]

lemma bareAll_eq_mapSpans (forms : List Form) : Form.bareAll forms = Form.mapSpans (fun _ => none) forms := by
  cases forms with
  | nil => rfl
  | cons f rest => rw [Form.bareAll, Form.mapSpans, bare_eq_mapSpan, bareAll_eq_mapSpans]

end

lemma mapError_eq_ok {α : Type} {g : Fault → Fault} {x : Except Fault α} {a : α} :
    x.mapError g = .ok a ↔ x = .ok a := by
  cases x <;> simp [Except.mapError]

/-- Forms that differ only in their spans are converted to the same node. -/
theorem toNode_of_bare_eq {f g : Form} {top : Bool} {n : Node} (h : f.bare = g.bare)
    (hn : f.toNode top = .ok n) : g.toNode top = .ok n := by
  rw [bare_eq_mapSpan, bare_eq_mapSpan] at h
  have hf := toNode_mapSpan (fun _ => none) f top
  rw [h, toNode_mapSpan, hn] at hf
  exact mapError_eq_ok.1 hf

end Bilisp
