import Bilisp.Proofs.Conversions

/-!
# How forms are read

The conversion of forms as a relation, with one rule for each way to read a form (`Reads`). Every form that is
converted is read by one of the rules (`reads_of_nodeAt`), so a property of all nodes that forms give is proved
by induction on the rules. Spans play no part in it: the rules are about bare forms.
-/

namespace Bilisp

/-- The form is read as the node at the place. -/
inductive Reads : Place → Node → Form → Prop
  | atom {p : Place} {value : Atom} {n : Node} (hnode : atomNode value none = .ok n)
    (hkeyword : p = .quoted → ∀ name, value ≠ .keyword name) : Reads p n (.atom value none)
  | quotedKeyword {name : Text} : Reads .quoted (.identifier (escapeSymbol name)) (.atom (.keyword name) none)
  | vector {p : Place} {pairs : List (Node × Form)} (hitems : ∀ q ∈ pairs, Reads p.inner q.1 q.2) :
    Reads p (.vector (pairs.map Prod.fst)) (.vector (pairs.map Prod.snd))
  | dictionary {p : Place} {pairs : List (Node × Form)} (hentries : ∀ q ∈ pairs, Reads p.inner q.1 q.2)
    (heven : pairs.length % 2 = 0) :
    Reads p (.dictionary (pairs.map Prod.fst)) (.compound .map (pairs.map Prod.snd) none)
  | setOf {p : Place} {pairs : List (Node × Form)} (hitems : ∀ q ∈ pairs, Reads p.inner q.1 q.2) :
    Reads p (.setOf (pairs.map Prod.fst)) (.compound .set (pairs.map Prod.snd) none)
  | emptyTuple {p : Place} : Reads p (.tuple []) (.list [])
  | quotedTuple {pairs : List (Node × Form)} (hitems : ∀ q ∈ pairs, Reads .quoted q.1 q.2) :
    Reads .quoted (.tuple (pairs.map Prod.fst)) (.headed "tuple" (pairs.map Prod.snd))
  | unquoted {n : Node} {f : Form} (h : Reads (.plain false) n f) : Reads .quoted n (.headed "quote" [f])
  | raw {name : Text} {pairs : List (Node × Form)} (hquote : name ≠ "quote".toList)
    (htuple : name ≠ "tuple".toList) (hargs : ∀ q ∈ pairs, Reads .quoted q.1 q.2) :
    Reads .quoted (.raw (escapeSymbol name) (pairs.map Prod.fst)) (.headed name (pairs.map Prod.snd))
  | rawCall {pairs : List (Node × Form)} {first : Node × Form} (hfirst : ∀ name, first.2 ≠ .symbol name)
    (hparts : ∀ q ∈ first :: pairs, Reads .quoted q.1 q.2) :
    Reads .quoted (.raw "call" (first.1 :: pairs.map Prod.fst)) (.list (first.2 :: pairs.map Prod.snd))
  | sequence {top : Bool} {name : Text} {pairs : List (Node × Form)}
    (hname : SpecialForm.ofName? name = some .sequence) (hbody : ∀ q ∈ pairs, Reads (.plain false) q.1 q.2) :
    Reads (.plain top) (.sequence (pairs.map Prod.fst)) (.headed name (pairs.map Prod.snd))
  | ifThen {top : Bool} {name : Text} {n m : Node} {f g : Form}
    (hname : SpecialForm.ofName? name = some .conditional) (hcondition : Reads (.plain false) n f)
    (hthen : Reads (.plain false) m g) : Reads (.plain top) (.ifThen n m) (.headed name [f, g])
  | ifElse {top : Bool} {name : Text} {n m k : Node} {f g e : Form}
    (hname : SpecialForm.ofName? name = some .conditional) (hcondition : Reads (.plain false) n f)
    (hthen : Reads (.plain false) m g) (helse : Reads (.plain false) k e) :
    Reads (.plain top) (.ifElse n m k) (.headed name [f, g, e])
  | quote {top : Bool} {name kind : Text} {n : Node} {f : Form}
    (hname : SpecialForm.ofName? name = some (.quoting kind)) (hvalue : Reads (.plain false) n f) :
    Reads (.plain top) (.quote n) (.headed name [f])
  | interpolate {top : Bool} {name : Text} {n : Node} {f : Form}
    (hname : SpecialForm.ofName? name = some .unquoting) (hvalue : Reads (.plain false) n f) :
    Reads (.plain top) (.interpolate n) (.headed name [f])
  | letBlock {top : Bool} {name : Text} {pairs body : List (Node × Form)}
    (hname : SpecialForm.ofName? name = some .letBlock) (hbindings : ∀ q ∈ pairs, Reads (.plain false) q.1 q.2)
    (heven : pairs.length % 2 = 0) (hbody : ∀ q ∈ body, Reads (.plain false) q.1 q.2) :
    Reads (.plain top) (.letBlock (assignments (pairs.map Prod.fst)) (.sequence (body.map Prod.fst)))
      (.headed name (.vector (pairs.map Prod.snd) :: body.map Prod.snd))
  | lambda {top : Bool} {name : Text} {pairs body : List (Node × Form)}
    (hname : SpecialForm.ofName? name = some .function) (hparams : ∀ q ∈ pairs, Reads (.plain false) q.1 q.2)
    (hbody : ∀ q ∈ body, Reads (.plain false) q.1 q.2) :
    Reads (.plain top) (.lambda (pairs.map Prod.fst) (.sequence (body.map Prod.fst)))
      (.headed name (.vector (pairs.map Prod.snd) :: body.map Prod.snd))
  | function {top : Bool} {name : Text} {n : Node} {f : Form} {pairs body : List (Node × Form)}
    (hname : SpecialForm.ofName? name = some .namedFunction ∨
      (SpecialForm.ofName? name = some .function ∧ ∀ items, f ≠ .vector items))
    (hfunction : Reads (.plain false) n f) (hparams : ∀ q ∈ pairs, Reads (.plain false) q.1 q.2)
    (hbody : ∀ q ∈ body, Reads (.plain false) q.1 q.2) :
    Reads (.plain top) (.function n (pairs.map Prod.fst) (.sequence (body.map Prod.fst)))
      (.headed name (f :: .vector (pairs.map Prod.snd) :: body.map Prod.snd))
  | definition {name : Text} {n m : Node} {f g : Form} (hname : SpecialForm.ofName? name = some .definition)
    (htarget : Reads (.plain false) n f) (hvalue : Reads (.plain false) m g) :
    Reads (.plain true) (.assignment n m) (.headed name [f, g])
  | subscript {top : Bool} {name : Text} {n : Node} {f : Form} {pairs : List (Node × Form)}
    (hname : SpecialForm.ofName? name = some .subscript) (hcollection : Reads (.plain false) n f)
    (hindices : ∀ q ∈ pairs, Reads (.plain false) q.1 q.2) :
    Reads (.plain top) (.subscript n (pairs.map Prod.fst)) (.headed name (f :: pairs.map Prod.snd))
  | range {top : Bool} {name : Text} {pairs : List (Node × Form)}
    (hname : SpecialForm.ofName? name = some .range) (hparts : ∀ q ∈ pairs, Reads (.plain false) q.1 q.2)
    (hne : pairs ≠ []) (hlength : pairs.length ≤ 3) :
    Reads (.plain top) (rangeOf (pairs.map Prod.fst)) (.headed name (pairs.map Prod.snd))
  | moduleBlock {top : Bool} {name : Text} {n : Node} {f : Form} {pairs : List (Node × Form)}
    (hname : SpecialForm.ofName? name = some .moduleBlock) (hmodule : Reads (.plain false) n f)
    (hbody : ∀ q ∈ pairs, Reads (.plain true) q.1 q.2) :
    Reads (.plain top) (.moduleBlock n (pairs.map Prod.fst)) (.headed name (f :: pairs.map Prod.snd))
  | listing {top : Bool} {name : Text} (kind : Listing) {pairs : List (Node × Form)}
    (hname : SpecialForm.ofName? name = some kind.special) (hparts : ∀ q ∈ pairs, Reads (.plain false) q.1 q.2)
    (hne : pairs ≠ [] ∨ kind.MayBeEmpty) :
    Reads (.plain top) (kind.node (pairs.map Prod.fst)) (.headed name (pairs.map Prod.snd))
  | noParts {top : Bool} {name : Text} (hname : SpecialForm.ofName? name = some .tuple) :
    Reads (.plain top) (.tuple []) (.headed name [])
  | access {top : Bool} {name field : Text} {n : Node} {f : Form}
    (hname : SpecialForm.ofName? name = some .access) (hfull : (splitPath field).any List.isEmpty = false)
    (hbase : Reads (.plain false) n f) :
    Reads (.plain top) ((splitPath field).foldl (fun node segment => .dotAccess node (escapeSymbol segment)) n)
      (.headed name [f, .symbol field])
  | ascription {top : Bool} {name : Text} {pairs : List (Node × Form)}
    (hname : SpecialForm.ofName? name = some .ascription) (hparts : ∀ q ∈ pairs, Reads (.plain false) q.1 q.2)
    (hne : pairs ≠ []) :
    Reads (.plain top) (.ascription (pairs.map Prod.fst)) (.headed name (pairs.map Prod.snd))
  | macroCall {top : Bool} {name : Text} {pairs : List (Node × Form)} (hhead : name.head? = some '@')
    (hlength : 1 < name.length) (hargs : ∀ q ∈ pairs, Reads .quoted q.1 q.2) :
    Reads (.plain top) (.macroCall (escapeSymbol name) (pairs.map Prod.fst)) (.headed name (pairs.map Prod.snd))
  | call {top : Bool} {n : Node} {f : Form} {pairs : List (Node × Form)} (hleads : f.LeadsCall)
    (hcallee : Reads (.plain false) n f) (hargs : ∀ q ∈ pairs, Reads (.plain false) q.1 q.2) :
    Reads (.plain top) (.call n (pairs.map Prod.fst)) (.list (f :: pairs.map Prod.snd))

/-! ## Results of conversions -/

section

variable {α β : Type}

lemma bind_eq_ok {x : Except Fault α} {k : α → Except Fault β} {b : β} :
    x >>= k = .ok b ↔ ∃ a, x = .ok a ∧ k a = .ok b := by
  cases x with
  | error fault => exact ⟨nofun, fun ⟨_, hx, _⟩ => nomatch hx⟩
  | ok a => exact ⟨fun h => ⟨a, rfl, h⟩, fun ⟨_, hx, h⟩ => Except.ok.inj hx ▸ h⟩

lemma pure_eq_ok {a b : α} : (pure a : Except Fault α) = .ok b ↔ a = b := by
  constructor
  · exact Except.ok.inj
  · exact congrArg Except.ok

lemma exists_error_iff {x : Except Fault α} : (∃ fault, x = .error fault) ↔ ¬∃ a, x = .ok a := by
  cases x <;> simp

end

/-- Whether a form, or the forms inside it, are read by the rules wherever they are converted. -/
structure Form.FollowsRules (f : Form) : Prop where
  reads : ∀ p n, f.nodeAt p = .ok n → Reads p n f.bare
  elements : ∀ shape elements span, f = .compound shape elements span →
    ∀ nodes, toNodes elements = .ok nodes →
      ∃ pairs : List (Node × Form), pairs.map Prod.fst = nodes ∧ pairs.map Prod.snd = bareAll elements ∧
        pairs.length = elements.length ∧ ∀ q ∈ pairs, Reads (.plain false) q.1 q.2

lemma exists_of_mem_forall₂ {α β : Type} {R : α → β → Prop} {items : List α} {results : List β}
    (h : List.Forall₂ R items results) : ∀ b ∈ results, ∃ a ∈ items, R a b := by
  induction h with
  | nil => exact fun b hb => absurd hb List.not_mem_nil
  | @cons a b _ _ hab hrest ih =>
    rintro c (_ | ⟨_, hc⟩)
    · exact ⟨a, List.mem_cons_self, hab⟩
    · obtain ⟨d, hd, hdc⟩ := ih c hc
      exact ⟨d, List.mem_cons_of_mem _ hd, hdc⟩

lemma ne_nil_of_length_eq {α β : Type} {l : List α} {m : List β} (h : l.length = m.length) (hm : m ≠ []) :
    l ≠ [] := by
  rintro rfl
  exact hm (List.eq_nil_of_length_eq_zero h.symm)

section

variable {forms : List Form} (h : ∀ f ∈ forms, f.FollowsRules)

include h

lemma exists_readings {p : Place} {nodes : List Node} (hnodes : Form.nodesAt p forms = .ok nodes) :
    ∃ pairs : List (Node × Form), pairs.map Prod.fst = nodes ∧ pairs.map Prod.snd = Form.bareAll forms ∧
      pairs.length = forms.length ∧ ∀ q ∈ pairs, Reads p q.1 q.2 := by
  induction forms generalizing nodes with
  | nil =>
    refine ⟨[], ?_, rfl, rfl, fun q hq => absurd hq List.not_mem_nil⟩
    rcases p with (_ | _) | _ <;> exact Except.ok.inj hnodes
  | cons f rest ih =>
    rw [nodesAt_cons] at hnodes
    simp only [bind_eq_ok, pure_eq_ok] at hnodes
    obtain ⟨n, hn, others, hothers, rfl⟩ := hnodes
    obtain ⟨pairs, rfl, hforms, hlength, hreads⟩ := ih (fun g hg => h g (List.mem_cons_of_mem _ hg)) hothers
    refine ⟨(n, f.bare) :: pairs, rfl, congrArg (f.bare :: ·) hforms, congrArg (· + 1) hlength, ?_⟩
    rintro q (_ | ⟨_, hq⟩)
    · exact (h f List.mem_cons_self).reads p n hn
    · exact hreads q hq

lemma exists_parts {nodes : List Node} (hnodes : Form.toNodes forms = .ok nodes) :
    ∃ pairs : List (Node × Form), pairs.map Prod.fst = nodes ∧ pairs.map Prod.snd = Form.bareAll forms ∧
      pairs.length = forms.length ∧ ∀ q ∈ pairs, Reads (.plain false) q.1 q.2 :=
  exists_readings h hnodes

/-! ## Special forms -/

omit h in
lemma Form.FollowsRules.tail {f : Form} (h : ∀ g ∈ f :: forms, g.FollowsRules) : ∀ g ∈ forms, g.FollowsRules :=
  fun g hg => h g (List.mem_cons_of_mem _ hg)

variable {top : Bool} {whole head : Form} {name : Text} {n : Node}

lemma reads_listing (kind : Listing) (hname : SpecialForm.ofName? name = some kind.special)
    (hn : Form.toSpecialNode top whole kind.special (head :: forms) = .ok n) :
    Reads (.plain top) n (.headed name (Form.bareAll forms)) := by
  by_cases hne : forms ≠ [] ∨ kind.MayBeEmpty
  · rw [kind.toSpecialNode_eq hne, map_eq_pure_bind] at hn
    simp only [bind_eq_ok, pure_eq_ok] at hn
    obtain ⟨nodes, hnodes, rfl⟩ := hn
    obtain ⟨pairs, rfl, hforms, hlength, hreads⟩ := exists_parts h hnodes
    rw [← hforms]
    exact .listing kind hname hreads (hne.imp_left (ne_nil_of_length_eq hlength))
  · rw [not_or, not_not] at hne
    obtain ⟨rfl, hfull⟩ := hne
    cases kind with
    | tuple =>
      rw [← Except.ok.inj hn]
      exact .noParts hname
    | conjunction => exact absurd (.inl rfl) hfull
    | disjunction => exact absurd (.inr rfl) hfull
    | _ => cases hn

lemma reads_sequence (hname : SpecialForm.ofName? name = some .sequence)
    (hn : Form.toSpecialNode top whole .sequence (head :: forms) = .ok n) :
    Reads (.plain top) n (.headed name (Form.bareAll forms)) := by
  rw [Form.toSpecialNode] at hn
  simp only [bind_eq_ok, pure_eq_ok] at hn
  obtain ⟨nodes, hnodes, rfl⟩ := hn
  obtain ⟨pairs, rfl, hforms, hlength, hreads⟩ := exists_parts h hnodes
  rw [← hforms]
  exact .sequence hname hreads

lemma reads_range (hname : SpecialForm.ofName? name = some .range)
    (hn : Form.toSpecialNode top whole .range (head :: forms) = .ok n) :
    Reads (.plain top) n (.headed name (Form.bareAll forms)) := by
  rw [Form.toSpecialNode] at hn
  split at hn
  · cases hn
  next hcount =>
    rw [Bool.or_eq_true, not_or, List.isEmpty_iff, decide_eq_true_eq, not_lt] at hcount
    simp only [bind_eq_ok, pure_eq_ok] at hn
    obtain ⟨nodes, hnodes, rfl⟩ := hn
    obtain ⟨pairs, rfl, hforms, hlength, hreads⟩ := exists_parts h hnodes
    rw [← hforms]
    exact .range hname hreads (ne_nil_of_length_eq hlength hcount.1) (hlength ▸ hcount.2)

lemma reads_ascription (hname : SpecialForm.ofName? name = some .ascription)
    (hn : Form.toSpecialNode top whole .ascription (head :: forms) = .ok n) :
    Reads (.plain top) n (.headed name (Form.bareAll forms)) := by
  rw [Form.toSpecialNode] at hn
  split at hn
  · cases hn
  next hfull =>
    rw [List.isEmpty_iff] at hfull
    simp only [bind_eq_ok, pure_eq_ok] at hn
    obtain ⟨nodes, hnodes, rfl⟩ := hn
    obtain ⟨pairs, rfl, hforms, hlength, hreads⟩ := exists_parts h hnodes
    rw [← hforms]
    exact .ascription hname hreads (ne_nil_of_length_eq hlength hfull)

/-- The special forms of exactly one part. -/
lemma reads_single {special : SpecialForm} (hname : SpecialForm.ofName? name = some special)
    (hspecial : special = .unquoting ∨ ∃ kind, special = .quoting kind)
    (hn : Form.toSpecialNode top whole special (head :: forms) = .ok n) :
    Reads (.plain top) n (.headed name (Form.bareAll forms)) := by
  match forms with
  | [] => rcases hspecial with rfl | ⟨kind, rfl⟩ <;> cases hn
  | _ :: _ :: _ => rcases hspecial with rfl | ⟨kind, rfl⟩ <;> cases hn
  | [f] =>
    have hf := (h f List.mem_cons_self).reads (.plain false)
    rcases hspecial with rfl | ⟨kind, rfl⟩
    · rw [Form.toSpecialNode] at hn
      simp only [bind_eq_ok, pure_eq_ok] at hn
      obtain ⟨m, hm, rfl⟩ := hn
      exact .interpolate hname (hf m hm)
    · rw [Form.toSpecialNode] at hn
      simp only [bind_eq_ok, pure_eq_ok] at hn
      obtain ⟨m, hm, rfl⟩ := hn
      exact .quote hname (hf m hm)

lemma reads_conditional (hname : SpecialForm.ofName? name = some .conditional)
    (hn : Form.toSpecialNode top whole .conditional (head :: forms) = .ok n) :
    Reads (.plain top) n (.headed name (Form.bareAll forms)) := by
  have hread : ∀ f ∈ forms, ∀ m, f.toNode false = .ok m → Reads (.plain false) m f.bare :=
    fun f hf => (h f hf).reads (.plain false)
  match forms with
  | [] => cases hn
  | [_] => cases hn
  | _ :: _ :: _ :: _ :: _ => cases hn
  | [c, f] =>
    rw [Form.toSpecialNode] at hn
    simp only [bind_eq_ok, pure_eq_ok] at hn
    obtain ⟨m, hm, k, hk, rfl⟩ := hn
    exact .ifThen hname (hread c (by simp) m hm) (hread f (by simp) k hk)
  | [c, f, g] =>
    rw [Form.toSpecialNode] at hn
    simp only [bind_eq_ok, pure_eq_ok] at hn
    obtain ⟨m, hm, k, hk, e, he, rfl⟩ := hn
    exact .ifElse hname (hread c (by simp) m hm) (hread f (by simp) k hk) (hread g (by simp) e he)

lemma reads_definition (hname : SpecialForm.ofName? name = some .definition)
    (hn : Form.toSpecialNode top whole .definition (head :: forms) = .ok n) :
    Reads (.plain top) n (.headed name (Form.bareAll forms)) := by
  have hread : ∀ f ∈ forms, ∀ m, f.toNode false = .ok m → Reads (.plain false) m f.bare :=
    fun f hf => (h f hf).reads (.plain false)
  match forms with
  | [] => cases hn
  | [_] => cases hn
  | _ :: _ :: _ :: _ => cases hn
  | [f, g] =>
    rw [Form.toSpecialNode] at hn
    split at hn
    · cases hn
    next htop =>
      obtain rfl : top = true := by simpa using htop
      simp only [bind_eq_ok, pure_eq_ok] at hn
      obtain ⟨m, hm, k, hk, rfl⟩ := hn
      exact .definition hname (hread f (by simp) m hm) (hread g (by simp) k hk)

/-- The special forms of one part and others behind it. -/
lemma reads_headed {special : SpecialForm} (hname : SpecialForm.ofName? name = some special)
    (hspecial : special = .subscript ∨ special = .moduleBlock)
    (hn : Form.toSpecialNode top whole special (head :: forms) = .ok n) :
    Reads (.plain top) n (.headed name (Form.bareAll forms)) := by
  match forms with
  | [] => rcases hspecial with rfl | rfl <;> cases hn
  | f :: rest =>
    have hf := (h f List.mem_cons_self).reads (.plain false)
    rcases hspecial with rfl | rfl
    · rw [Form.toSpecialNode] at hn
      simp only [bind_eq_ok, pure_eq_ok] at hn
      obtain ⟨m, hm, nodes, hnodes, rfl⟩ := hn
      obtain ⟨pairs, rfl, hforms, hlength, hreads⟩ := exists_parts (Form.FollowsRules.tail h) hnodes
      rw [Form.bareAll, ← hforms]
      exact .subscript hname (hf m hm) hreads
    · rw [Form.toSpecialNode] at hn
      simp only [bind_eq_ok, pure_eq_ok] at hn
      obtain ⟨nodes, hnodes, m, hm, rfl⟩ := hn
      obtain ⟨pairs, rfl, hforms, hlength, hreads⟩ :=
        exists_readings (Form.FollowsRules.tail h) (p := .plain true) hnodes
      rw [Form.bareAll, ← hforms]
      exact .moduleBlock hname (hf m hm) hreads

lemma reads_access (hname : SpecialForm.ofName? name = some .access)
    (hn : Form.toSpecialNode top whole .access (head :: forms) = .ok n) :
    Reads (.plain top) n (.headed name (Form.bareAll forms)) := by
  match forms with
  | [] => cases hn
  | [_] => cases hn
  | f :: g :: i :: rest =>
    rw [Form.toSpecialNode] at hn
    · cases hn
    · exact nofun
    · exact nofun
    · exact nofun
  | [f, .compound _ _ _] => cases hn
  | [f, .atom value place] =>
    cases value with
    | symbol field =>
      rw [Form.toSpecialNode] at hn
      dsimp only at hn
      split at hn
      · cases hn
      next hfull =>
        simp only [bind_eq_ok, pure_eq_ok] at hn
        obtain ⟨m, hm, rfl⟩ := hn
        exact .access hname (Bool.not_eq_true _ ▸ hfull) ((h f List.mem_cons_self).reads (.plain false) m hm)
    | _ => cases hn

lemma reads_letBlock (hname : SpecialForm.ofName? name = some .letBlock)
    (hn : Form.toSpecialNode top whole .letBlock (head :: forms) = .ok n) :
    Reads (.plain top) n (.headed name (Form.bareAll forms)) := by
  match forms with
  | [] => cases hn
  | .atom _ _ :: _ => cases hn
  | .compound .list _ _ :: _ => cases hn
  | .compound .map _ _ :: _ => cases hn
  | .compound .set _ _ :: _ => cases hn
  | .compound .vector bindings place :: body =>
    have hbindings := (h _ List.mem_cons_self).elements _ _ _ rfl
    rw [Form.toSpecialNode] at hn
    split at hn
    · cases hn
    next heven =>
      simp only [bind_eq_ok, pure_eq_ok] at hn
      obtain ⟨targets, htargets, nodes, hnodes, rfl⟩ := hn
      obtain ⟨pairs, rfl, hforms, hlength, hreads⟩ := hbindings targets htargets
      obtain ⟨statements, rfl, hbody, -, hstatements⟩ := exists_parts (Form.FollowsRules.tail h) hnodes
      rw [Form.bareAll, Form.bare, ← hforms, ← hbody]
      exact .letBlock hname hreads (by omega) hstatements

omit h in
/-- A name, a vector of parameters and a body. -/
lemma reads_signature {f : Form} {params body : List Form} {place : Option Span}
    (h : ∀ g ∈ f :: .compound .vector params place :: body, g.FollowsRules)
    (hname : SpecialForm.ofName? name = some .namedFunction ∨
      (SpecialForm.ofName? name = some .function ∧ ∀ items, f.bare ≠ .vector items))
    (hn : (do return .function (← f.toNode false) (← Form.toNodes params) (.sequence (← Form.toNodes body))) =
      Except.ok (ε := Fault) n) :
    Reads (.plain top) n (.headed name (Form.bareAll (f :: .compound .vector params place :: body))) := by
  have hparams := (Form.FollowsRules.tail h _ List.mem_cons_self).elements _ _ _ rfl
  simp only [bind_eq_ok, pure_eq_ok] at hn
  obtain ⟨m, hm, nodes, hnodes, statements, hstatements, rfl⟩ := hn
  obtain ⟨pairs, rfl, hforms, -, hreads⟩ := hparams nodes hnodes
  obtain ⟨others, rfl, hbody, -, hothers⟩ :=
    exists_parts (Form.FollowsRules.tail (Form.FollowsRules.tail h)) hstatements
  rw [Form.bareAll, Form.bareAll, Form.bare, ← hforms, ← hbody]
  exact .function hname ((h f List.mem_cons_self).reads (.plain false) m hm) hreads hothers

omit h in
lemma bare_ne_vector {f : Form} (hf : ∀ elements span, f ≠ .compound .vector elements span) (items : List Form) :
    f.bare ≠ .vector items := by
  intro heq
  cases f with
  | atom value span => cases heq
  | compound shape elements span =>
    obtain ⟨rfl, -, -⟩ := Form.compound.inj heq
    exact hf elements span rfl

lemma reads_namedFunction (hname : SpecialForm.ofName? name = some .namedFunction)
    (hn : Form.toSpecialNode top whole .namedFunction (head :: forms) = .ok n) :
    Reads (.plain top) n (.headed name (Form.bareAll forms)) := by
  match forms with
  | [] => cases hn
  | [_] => cases hn
  | f :: .compound .vector params place :: body =>
    rw [Form.toSpecialNode] at hn
    exact reads_signature h (.inl hname) hn
  | f :: .atom _ _ :: _ | f :: .compound .list _ _ :: _ | f :: .compound .map _ _ :: _
  | f :: .compound .set _ _ :: _ =>
    rw [Form.toSpecialNode] at hn
    · simp only [bind_eq_ok] at hn
      obtain ⟨m, -, hn⟩ := hn
      cases hn
    · exact nofun

lemma reads_function (hname : SpecialForm.ofName? name = some .function)
    (hn : Form.toSpecialNode top whole .function (head :: forms) = .ok n) :
    Reads (.plain top) n (.headed name (Form.bareAll forms)) := by
  match forms with
  | [] => cases hn
  | f :: rest =>
    by_cases hvector : ∃ params place, f = .compound .vector params place
    · obtain ⟨params, place, rfl⟩ := hvector
      have hparams := (h _ List.mem_cons_self).elements _ _ _ rfl
      rw [Form.toSpecialNode] at hn
      simp only [bind_eq_ok, pure_eq_ok] at hn
      obtain ⟨nodes, hnodes, statements, hstatements, rfl⟩ := hn
      obtain ⟨pairs, rfl, hforms, -, hreads⟩ := hparams nodes hnodes
      obtain ⟨body, rfl, hbody, -, hbodyReads⟩ := exists_parts (Form.FollowsRules.tail h) hstatements
      rw [Form.bareAll, Form.bare, ← hforms, ← hbody]
      exact .lambda hname hreads hbodyReads
    · have hf : ∀ params place, f ≠ .compound .vector params place := by simpa using hvector
      match rest with
      | [] =>
        rw [Form.toSpecialNode] at hn
        · cases hn
        · exact hf
      | g :: body =>
        by_cases hparams : ∃ params place, g = .compound .vector params place
        · obtain ⟨params, place, rfl⟩ := hparams
          rw [Form.toSpecialNode] at hn
          · exact reads_signature h (.inr ⟨hname, bare_ne_vector hf⟩) hn
          · exact hf
        · rw [Form.toSpecialNode] at hn
          · simp only [bind_eq_ok] at hn
            obtain ⟨m, -, hn⟩ := hn
            cases hn
          · exact hf
          · simpa using hparams

/-- Each special form is read by its rule. -/
lemma reads_special {special : SpecialForm} (hname : SpecialForm.ofName? name = some special)
    (hn : Form.toSpecialNode top whole special (head :: forms) = .ok n) :
    Reads (.plain top) n (.headed name (Form.bareAll forms)) := by
  cases special with
  | sequence => exact reads_sequence h hname hn
  | conditional => exact reads_conditional h hname hn
  | quoting kind => exact reads_single h hname (.inr ⟨kind, rfl⟩) hn
  | unquoting => exact reads_single h hname (.inl rfl) hn
  | splicing => cases hn
  | letBlock => exact reads_letBlock h hname hn
  | function => exact reads_function h hname hn
  | namedFunction => exact reads_namedFunction h hname hn
  | definition => exact reads_definition h hname hn
  | subscript => exact reads_headed h hname (.inl rfl) hn
  | range => exact reads_range h hname hn
  | moduleBlock => exact reads_headed h hname (.inr rfl) hn
  | access => exact reads_access h hname hn
  | ascription => exact reads_ascription h hname hn
  | tuple => exact reads_listing h .tuple hname hn
  | importing => exact reads_listing h .imports hname hn
  | «using» => exact reads_listing h .uses hname hn
  | exporting => exact reads_listing h .exports hname hn
  | curly => exact reads_listing h .curly hname hn
  | conjunction => exact reads_listing h .conjunction hname hn
  | disjunction => exact reads_listing h .disjunction hname hn

end

/-! ## Forms -/

lemma bare_eq_symbol {f : Form} {name : Text} (h : f.bare = .symbol name) :
    ∃ span, f = .atom (.symbol name) span := by
  cases f with
  | atom value span =>
    cases h
    exact ⟨span, rfl⟩
  | compound shape elements span => cases h

lemma atomNode_bare {value : Atom} {span : Option Span} {n : Node} (h : atomNode value span = .ok n) :
    atomNode value none = .ok n := by
  have hnone := atomNode_mapSpan (φ := fun _ => none) value span
  rw [h] at hnone
  exact hnone

lemma reads_quotedAtom {value : Atom} {span : Option Span} {n : Node}
    (hn : (Form.atom value span).toQuotedNode = .ok n) : Reads .quoted n (.atom value none) := by
  cases value with
  | keyword name =>
    rw [← Except.ok.inj hn]
    exact .quotedKeyword
  | _ =>
    rw [Form.toQuotedNode] at hn
    · exact .atom (atomNode_bare hn) (by simp)
    · simp

/-- A list that no symbol leads is an unevaluated call in quoted mode. -/
lemma reads_rawCall {f : Form} {rest : List Form} {span : Option Span} {n : Node}
    (h : ∀ g ∈ f :: rest, g.FollowsRules) (hf : ∀ name place, f ≠ .atom (.symbol name) place)
    (hn : (Form.compound .list (f :: rest) span).toQuotedNode = .ok n) :
    Reads .quoted n (.list (Form.bareAll (f :: rest))) := by
  rw [Form.toQuotedNode] at hn
  · simp only [bind_eq_ok, pure_eq_ok] at hn
    obtain ⟨nodes, hnodes, rfl⟩ := hn
    obtain ⟨pairs, rfl, hforms, -, hreads⟩ := exists_readings h (p := .quoted) hnodes
    cases pairs with
    | nil => cases hforms
    | cons first pairs =>
      have hfirst : first.2 = f.bare := (List.cons.inj hforms).1
      rw [← hforms]
      refine .rawCall (fun name heq => ?_) hreads
      obtain ⟨place, hplace⟩ := bare_eq_symbol (hfirst ▸ heq)
      exact hf name place hplace
  · simp
  · rintro name place args' heq
    exact hf name place (List.cons.inj heq).1

lemma reads_quotedList {elements : List Form} {span : Option Span} {n : Node}
    (h : ∀ f ∈ elements, f.FollowsRules) (hn : (Form.compound .list elements span).toQuotedNode = .ok n) :
    Reads .quoted n (.list (Form.bareAll elements)) := by
  match elements with
  | [] =>
    rw [← Except.ok.inj hn]
    exact .emptyTuple
  | .compound shape parts place :: args => exact reads_rawCall h (fun _ _ => nofun) hn
  | .atom value place :: args =>
    have hargs : ∀ nodes, Form.toQuotedNodes args = .ok nodes → ∃ pairs : List (Node × Form),
        pairs.map Prod.fst = nodes ∧ pairs.map Prod.snd = Form.bareAll args ∧
          pairs.length = args.length ∧ ∀ q ∈ pairs, Reads .quoted q.1 q.2 :=
      fun nodes => exists_readings (Form.FollowsRules.tail h) (p := .quoted)
    cases value with
    | symbol name =>
      by_cases hquote : name = "quote".toList
      · subst hquote
        by_cases hlength : args.length = 1
        · obtain ⟨inner, rfl⟩ := List.length_eq_one_iff.1 hlength
          rw [toQuotedNode_quote] at hn
          exact .unquoted ((h inner (by simp)).reads (.plain false) n hn)
        · rw [toQuotedNode_quote_ne _ _ _ hlength] at hn
          cases hn
      · by_cases htuple : name = "tuple".toList
        · subst htuple
          rw [toQuotedNode_tuple, map_eq_pure_bind] at hn
          simp only [bind_eq_ok, pure_eq_ok] at hn
          obtain ⟨nodes, hnodes, rfl⟩ := hn
          obtain ⟨pairs, rfl, hforms, -, hreads⟩ := hargs nodes hnodes
          rw [Form.bareAll, ← hforms]
          exact .quotedTuple hreads
        · rw [toQuotedNode_raw _ _ _ hquote htuple, map_eq_pure_bind] at hn
          simp only [bind_eq_ok, pure_eq_ok] at hn
          obtain ⟨nodes, hnodes, rfl⟩ := hn
          obtain ⟨pairs, rfl, hforms, -, hreads⟩ := hargs nodes hnodes
          rw [Form.bareAll, ← hforms]
          exact .raw hquote htuple hreads
    | _ => exact reads_rawCall h (fun _ _ => nofun) hn

/-- The list is a call. -/
lemma reads_call {f : Form} {args : List Form} {top : Bool} {n : Node} (h : ∀ g ∈ f :: args, g.FollowsRules)
    (hleads : f.bare.LeadsCall)
    (hn : (do return .call (← f.toNode false) (← Form.toNodes args)) = Except.ok (ε := Fault) n) :
    Reads (.plain top) n (.list (Form.bareAll (f :: args))) := by
  simp only [bind_eq_ok, pure_eq_ok] at hn
  obtain ⟨callee, hcallee, nodes, hnodes, rfl⟩ := hn
  obtain ⟨pairs, rfl, hforms, -, hreads⟩ := exists_parts (Form.FollowsRules.tail h) hnodes
  rw [Form.bareAll, ← hforms]
  exact .call hleads ((h f List.mem_cons_self).reads (.plain false) callee hcallee) hreads

lemma reads_list {elements : List Form} {span : Option Span} {top : Bool} {n : Node}
    (h : ∀ f ∈ elements, f.FollowsRules) (hn : (Form.compound .list elements span).toNode top = .ok n) :
    Reads (.plain top) n (.list (Form.bareAll elements)) := by
  match elements with
  | [] =>
    rw [← Except.ok.inj hn]
    exact .emptyTuple
  | .compound shape parts place :: args =>
    rw [Form.toNode] at hn
    exact reads_call h trivial hn
  | .atom value place :: args =>
    cases value with
    | symbol name =>
      rw [Form.toNode, Form.head?] at hn
      dsimp only at hn
      split at hn
      next special hspecial => exact reads_special (Form.FollowsRules.tail h) hspecial hn
      next hspecial =>
        split at hn
        next hmacroCall =>
          simp only [bind_eq_ok, pure_eq_ok] at hn
          obtain ⟨nodes, hnodes, rfl⟩ := hn
          obtain ⟨pairs, rfl, hforms, -, hreads⟩ :=
            exists_readings (Form.FollowsRules.tail h) (p := .quoted) hnodes
          rw [Form.bareAll, ← hforms]
          exact .macroCall hmacroCall.1 hmacroCall.2 hreads
        next hmacroCall => exact reads_call h ⟨hspecial, hmacroCall⟩ hn
    | _ => cases hn

lemma reads_vector {p : Place} {elements : List Form} {span : Option Span} {n : Node}
    (h : ∀ f ∈ elements, f.FollowsRules) (hn : (Form.compound .vector elements span).nodeAt p = .ok n) :
    Reads p n (.vector (Form.bareAll elements)) := by
  have hvector : Node.vector <$> Form.nodesAt p.inner elements = .ok n := by
    cases p with
    | plain top =>
      rw [Form.nodeAt, Form.toNode] at hn
      exact hn
    | quoted =>
      rw [Form.nodeAt, Form.toQuotedNode] at hn
      exact hn
  rw [map_eq_pure_bind] at hvector
  simp only [bind_eq_ok, pure_eq_ok] at hvector
  obtain ⟨nodes, hnodes, rfl⟩ := hvector
  obtain ⟨pairs, rfl, hforms, -, hreads⟩ := exists_readings h hnodes
  rw [← hforms]
  exact .vector hreads

lemma reads_set {p : Place} {elements : List Form} {span : Option Span} {n : Node}
    (h : ∀ f ∈ elements, f.FollowsRules) (hn : (Form.compound .set elements span).nodeAt p = .ok n) :
    Reads p n (.compound .set (Form.bareAll elements) none) := by
  have hset : Node.setOf <$> Form.nodesAt p.inner elements = .ok n := by
    cases p with
    | plain top =>
      rw [Form.nodeAt, Form.toNode] at hn
      exact hn
    | quoted =>
      rw [Form.nodeAt, Form.toQuotedNode] at hn
      exact hn
  rw [map_eq_pure_bind] at hset
  simp only [bind_eq_ok, pure_eq_ok] at hset
  obtain ⟨nodes, hnodes, rfl⟩ := hset
  obtain ⟨pairs, rfl, hforms, -, hreads⟩ := exists_readings h hnodes
  rw [← hforms]
  exact .setOf hreads

lemma reads_map {p : Place} {elements : List Form} {span : Option Span} {n : Node}
    (h : ∀ f ∈ elements, f.FollowsRules) (hn : (Form.compound .map elements span).nodeAt p = .ok n) :
    Reads p n (.compound .map (Form.bareAll elements) none) := by
  have hmap : elements.length % 2 = 0 ∧ Node.dictionary <$> Form.nodesAt p.inner elements = .ok n := by
    cases p with
    | plain top =>
      rw [Form.nodeAt, Form.toNode] at hn
      split at hn
      · cases hn
      next heven => exact ⟨by omega, hn⟩
    | quoted =>
      rw [Form.nodeAt, Form.toQuotedNode] at hn
      split at hn
      · cases hn
      next heven => exact ⟨by omega, hn⟩
  obtain ⟨heven, hmap⟩ := hmap
  rw [map_eq_pure_bind] at hmap
  simp only [bind_eq_ok, pure_eq_ok] at hmap
  obtain ⟨nodes, hnodes, rfl⟩ := hmap
  obtain ⟨pairs, rfl, hforms, hlength, hreads⟩ := exists_readings h hnodes
  rw [← hforms]
  exact .dictionary hreads (hlength ▸ heven)

theorem followsRules (f : Form) : f.FollowsRules := by
  induction f using Form.inductionOn with
  | atom value span =>
    refine ⟨fun p n hn => ?_, nofun⟩
    cases p with
    | plain top => exact .atom (atomNode_bare hn) nofun
    | quoted => exact reads_quotedAtom hn
  | compound shape elements span h =>
    refine ⟨fun p n hn => ?_, fun shape' elements' span' heq nodes hnodes => ?_⟩
    · cases shape with
      | list =>
        cases p with
        | plain top => exact reads_list h hn
        | quoted => exact reads_quotedList h hn
      | vector => exact reads_vector h hn
      | map => exact reads_map h hn
      | set => exact reads_set h hn
    · cases heq
      exact exists_parts h hnodes

/-- A form that is converted is read by one of the rules. -/
theorem reads_of_nodeAt {p : Place} {f : Form} {n : Node} (h : f.nodeAt p = .ok n) : Reads p n f.bare :=
  (followsRules f).reads p n h

end Bilisp
