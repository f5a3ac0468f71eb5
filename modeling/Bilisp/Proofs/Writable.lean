import Bilisp.Proofs.NormalNodes
import Bilisp.Proofs.Visits
import Bilisp.Source

/-!
# What reads can be written

A normal node fits where it stands, and it visits normal nodes only, so it has a form. As every form is read as a
normal node, the nodes of a program can all be written.
-/

namespace Bilisp

/-- Whether a node is a normal one for the place where it is converted. In macro calls this may be any normal
node. -/
def Node.NormalAt : Place → Node → Prop
  | .quoted, n => ∃ p, n.Normal p
  | .plain top, n => n.Normal (.plain top)

/-! ## Parts of normal nodes -/

lemma normal_literalParts {n : Node} (h : n.Normal (.plain false)) :
    ∀ m ∈ n.literalParts, m.Normal (.plain false) := by
  cases h with
  | call hcallee hargs => exact hargs
  | vector hitems => exact hitems
  | listing kind hparts hne => cases kind <;> exact fun m hm => absurd hm List.not_mem_nil
  | _ => exact fun m hm => absurd hm List.not_mem_nil

lemma normal_callParts {callee : Node} {args : List Node} (hcallee : callee.Normal (.plain false))
    (hargs : ∀ n ∈ args, n.Normal (.plain false)) : ∀ m ∈ Node.callParts callee args, m.Normal (.plain false) := by
  intro m hm
  rw [Node.callParts] at hm
  split at hm
  · obtain ⟨n, hn, hmn⟩ := List.mem_flatMap.1 hm
    exact normal_literalParts (hargs n hn) m hmn
  · rcases List.mem_cons.1 hm with rfl | hm
    · exact hcallee
    · exact hargs m hm

/-- The bindings of a block are assignments, of which the parts are among the nodes that were read. -/
lemma isBinding_assignments (parts : List Node) :
    (∀ n ∈ assignments parts, ∃ target value, n = .assignment target value) ∧
      ∀ m ∈ (assignments parts).flatMap Node.bindingParts, m ∈ parts := by
  fun_induction assignments parts with
  | case1 target value rest ih =>
    obtain ⟨hbindings, hparts⟩ := ih
    refine ⟨?_, fun m hm => ?_⟩
    · rintro n (_ | ⟨_, hn⟩)
      · exact ⟨target, value, rfl⟩
      · exact hbindings n hn
    · rw [List.flatMap_cons, List.mem_append] at hm
      rcases hm with hm | hm
      · simp only [Node.bindingParts, List.mem_cons, List.not_mem_nil, or_false] at hm
        rcases hm with rfl | rfl <;> simp
      · exact List.mem_cons_of_mem _ (List.mem_cons_of_mem _ (hparts m hm))
  | case2 => exact ⟨fun n hn => absurd hn List.not_mem_nil, fun m hm => absurd hm List.not_mem_nil⟩

lemma mem_of_mem_entries {nodes : List Node} {m : Node}
    (hm : m ∈ (Node.entries nodes).flatMap Node.literalParts) : m ∈ nodes := by
  fun_induction Node.entries nodes with
  | case1 key value rest ih =>
    rw [List.flatMap_cons, List.mem_append] at hm
    rcases hm with hm | hm
    · simp only [Node.literalParts, List.mem_cons, List.not_mem_nil, or_false] at hm
      rcases hm with rfl | rfl <;> simp
    · exact List.mem_cons_of_mem _ (List.mem_cons_of_mem _ (ih hm))
  | case2 => exact absurd hm List.not_mem_nil

/-! ## One step -/

lemma normalAt_map {nodes : List Node} (h : ∀ n ∈ nodes, n.Normal (.plain false)) :
    ∀ v ∈ nodes.map (Prod.mk (Place.plain false)), v.2.NormalAt v.1 := List.forall_mem_map.2 h

/-- A normal node inside another node fits outside macro calls, and it visits normal nodes. -/
lemma normal_visits {n : Node} (h : n.Normal (.plain false)) (top : Bool) :
    n.Fits (.plain top) ∧ ∀ v ∈ n.visits (.plain top), v.2.NormalAt v.1 := by
  cases h with
  | literal => exact ⟨trivial, fun v hv => absurd hv List.not_mem_nil⟩
  | identifier => exact ⟨trivial, fun v hv => absurd hv List.not_mem_nil⟩
  | @quote value h =>
    refine ⟨trivial, normalAt_map ?_⟩
    cases value with
    | identifier name => exact fun m hm => absurd hm List.not_mem_nil
    | _ => simpa [Node.plainParts, Node.parts] using h
  | interpolate h => exact ⟨trivial, normalAt_map (by simpa [Node.plainParts, Node.parts] using h)⟩
  | @call callee args hcallee hargs =>
    refine ⟨trivial, normalAt_map fun m hm => ?_⟩
    rw [Node.plainParts] at hm
    split at hm
    · exact absurd hm List.not_mem_nil
    · exact normal_callParts hcallee hargs m hm
  | ifThen hcondition hthen =>
    exact ⟨trivial, normalAt_map (by simpa [Node.plainParts, Node.parts] using ⟨hcondition, hthen⟩)⟩
  | ifElse hcondition hthen helse =>
    exact ⟨trivial, normalAt_map (by simpa [Node.plainParts, Node.parts] using ⟨hcondition, hthen, helse⟩)⟩
  | block hbody hlength => exact ⟨trivial, normalAt_map hbody⟩
  | @letBlock parts body hparts hbody =>
    obtain ⟨hbindings, hmem⟩ := isBinding_assignments parts
    refine ⟨fun n hn => ?_, normalAt_map fun m hm => ?_⟩
    · obtain ⟨target, value, rfl⟩ := hbindings n hn
      trivial
    · rw [Node.plainParts, List.mem_append, List.mem_singleton] at hm
      rcases hm with hm | rfl
      · exact hparts m (hmem m hm)
      · exact hbody
  | function hname hparams hbody =>
    refine ⟨trivial, normalAt_map fun m hm => ?_⟩
    rw [Node.plainParts, List.mem_cons, List.mem_append, List.mem_singleton] at hm
    rcases hm with rfl | hm | rfl
    · exact hname
    · exact hparams m hm
    · exact hbody
  | lambda hparams hbody =>
    refine ⟨trivial, normalAt_map fun m hm => ?_⟩
    rw [Node.plainParts, List.mem_append, List.mem_singleton] at hm
    rcases hm with hm | rfl
    · exact hparams m hm
    · exact hbody
  | listing kind hparts hne => cases kind <;> exact ⟨trivial, normalAt_map hparts⟩
  | emptyTuple => exact ⟨trivial, fun v hv => absurd hv List.not_mem_nil⟩
  | subscript hcollection hindices =>
    exact ⟨trivial, normalAt_map (List.forall_mem_cons.2 ⟨hcollection, hindices⟩)⟩
  | range hparts hlength => exact ⟨hlength, normalAt_map hparts⟩
  | dotAccess hbase => exact ⟨trivial, normalAt_map (by simpa [Node.plainParts] using hbase)⟩
  | ascription hoperands hne => exact ⟨trivial, normalAt_map hoperands⟩
  | macroCall hhead hlength hargs => exact ⟨trivial, List.forall_mem_map.2 fun n hn => ⟨_, hargs n hn⟩⟩
  | moduleBlock hname hbody => exact ⟨trivial, List.forall_mem_cons.2 ⟨hname, List.forall_mem_map.2 hbody⟩⟩
  | vector hitems => exact ⟨trivial, normalAt_map hitems⟩

lemma normalAt_quoted {nodes : List Node} {p : Place} (h : ∀ n ∈ nodes, n.Normal p) :
    ∀ v ∈ nodes.map (Prod.mk Place.quoted), v.2.NormalAt v.1 := List.forall_mem_map.2 fun n hn => ⟨p, h n hn⟩

/-- In a macro call a normal node visits normal nodes. -/
lemma normal_quotedVisits {p : Place} {n : Node} (h : n.Normal p) : ∀ v ∈ n.visits .quoted, v.2.NormalAt v.1 := by
  induction h with
  | statement h ih => exact ih
  | argument h ih => exact ih
  | literal => exact fun v hv => absurd hv List.not_mem_nil
  | identifier => exact fun v hv => absurd hv List.not_mem_nil
  | quote h ih => exact fun v hv => List.mem_singleton.1 hv ▸ h
  | interpolate h => exact normalAt_quoted (by simpa [Node.quotedParts, Node.parts] using h)
  | call hcallee hargs => exact normalAt_quoted (normal_callParts hcallee hargs)
  | ifThen hcondition hthen =>
    exact normalAt_quoted (by simpa [Node.quotedParts, Node.parts] using ⟨hcondition, hthen⟩)
  | ifElse hcondition hthen helse =>
    exact normalAt_quoted (by simpa [Node.quotedParts, Node.parts] using ⟨hcondition, hthen, helse⟩)
  | block hbody hlength => exact normalAt_quoted hbody
  | @letBlock parts body hparts hbody =>
    obtain ⟨hbindings, hmem⟩ := isBinding_assignments parts
    refine List.forall_mem_map.2 (List.forall_mem_cons.2 ⟨⟨_, hbody⟩, fun n hn => ?_⟩)
    obtain ⟨target, value, rfl⟩ := hbindings n hn
    have htarget := hmem target (List.mem_flatMap.2 ⟨_, hn, List.mem_cons_self⟩)
    have hvalue := hmem value (List.mem_flatMap.2 ⟨_, hn, List.mem_cons_of_mem _ List.mem_cons_self⟩)
    exact ⟨_, .assignment (hparts target htarget) (hparts value hvalue)⟩
  | function hname hparams hbody =>
    refine normalAt_quoted (p := .plain false) fun m hm => ?_
    rw [Node.quotedParts, List.mem_append, List.mem_singleton] at hm
    rcases hm with hm | rfl
    · exact normal_callParts hname hparams m hm
    · exact hbody
  | lambda hparams hbody =>
    refine normalAt_quoted (p := .plain false) fun m hm => ?_
    rw [Node.quotedParts, List.mem_append, List.mem_singleton] at hm
    rcases hm with hm | rfl
    · exact hparams m hm
    · exact hbody
  | assignment htarget hvalue =>
    exact normalAt_quoted (by simpa [Node.quotedParts, Node.parts] using ⟨htarget, hvalue⟩)
  | listing kind hparts hne => cases kind <;> exact normalAt_quoted hparts
  | emptyTuple => exact fun v hv => absurd hv List.not_mem_nil
  | subscript hcollection hindices =>
    exact normalAt_quoted (List.forall_mem_cons.2 ⟨hcollection, hindices⟩)
  | range hparts hlength => exact normalAt_quoted hparts
  | dotAccess hbase => exact normalAt_quoted (by simpa [Node.quotedParts] using hbase)
  | ascription hoperands hne => exact normalAt_quoted hoperands
  | macroCall hhead hlength hargs => exact normalAt_quoted hargs
  | moduleBlock hname hbody =>
    exact List.forall_mem_map.2 (List.forall_mem_cons.2 ⟨⟨_, hname⟩, fun n hn => ⟨_, hbody n hn⟩⟩)
  | vector hitems => exact normalAt_quoted hitems
  | quotedVector hitems => exact normalAt_quoted hitems
  | @quotedDictionary nodes hnodes =>
    refine normalAt_quoted (p := .quoted) fun m hm => ?_
    change m ∈ Node.callParts (.identifier "Dict") (Node.entries nodes) at hm
    rw [Node.callParts, literalShape?_dictionary, Option.isSome_some, if_pos rfl] at hm
    exact hnodes m (mem_of_mem_entries hm)
  | @quotedSet items hitems =>
    refine normalAt_quoted (p := .quoted) fun m hm => ?_
    change m ∈ Node.callParts (.identifier "Set") [.vector items] at hm
    rw [callParts_setOf] at hm
    exact hitems m hm
  | quotedTuple hitems => exact normalAt_quoted hitems
  | raw hhead hargs => exact normalAt_quoted hargs

/-- A normal node fits where it may be converted, and it visits normal nodes. -/
lemma normalAt_visits {p : Place} {n : Node} (h : n.NormalAt p) :
    n.Fits p ∧ ∀ v ∈ n.visits p, v.2.NormalAt v.1 := by
  cases p with
  | quoted =>
    obtain ⟨q, hq⟩ := h
    exact ⟨trivial, normal_quotedVisits hq⟩
  | plain top =>
    cases top with
    | false => exact normal_visits h false
    | true =>
      cases h with
      | statement h => exact normal_visits h true
      | assignment htarget hvalue =>
        exact ⟨rfl, normalAt_map (by simpa [Node.plainParts, Node.parts] using ⟨htarget, hvalue⟩)⟩

/-- A normal node can be written wherever it may be converted. -/
theorem exists_form {p : Place} {n : Node} (h : n.NormalAt p) : ∃ f, n.formAt p = .ok f := by
  induction hsize : sizeOf n using Nat.strongRecOn generalizing p n with
  | _ size ih =>
    subst hsize
    obtain ⟨hfits, hvisits⟩ := normalAt_visits h
    exact exists_formAt_iff.2 ⟨hfits, fun v hv => ih (sizeOf v.2) (sizeOf_visits hv) (hvisits v hv) rfl⟩

lemma forall₂_of_collect {α β γ : Type} {g : α → Except Fault γ} {feed : Feed α β} {results : List γ}
    (h : feed.collect g = .ok results) :
    (∃ closing, feed.ending = .ok closing) ∧ List.Forall₂ (fun a c => g a = .ok c) feed.items results := by
  induction feed generalizing results with
  | done closing =>
    cases h
    exact ⟨⟨closing, rfl⟩, .nil⟩
  | failed fault => cases h
  | next item rest ih =>
    rw [Feed.collect] at h
    simp only [bind_eq_ok, pure_eq_ok] at h
    obtain ⟨first, hfirst, others, hothers, rfl⟩ := h
    obtain ⟨hending, hitems⟩ := ih hothers
    exact ⟨hending, .cons hfirst hitems⟩

lemma exists_of_mem_collect {α β γ : Type} {g : α → Except Fault γ} {feed : Feed α β} {results : List γ}
    (h : feed.collect g = .ok results) : ∀ c ∈ results, ∃ a ∈ feed.items, g a = .ok c := by
  obtain ⟨-, hitems⟩ := forall₂_of_collect h
  exact exists_of_mem_forall₂ hitems

mutual

lemma readable_bare (f : Form) (h : f.Readable) : f.bare.Readable := by
  cases f with
  | atom value span => exact h
  | compound shape elements span =>
    refine ⟨fun hmap => ?_, readable_bareAll elements h.2⟩
    rw [length_bareAll]
    exact h.1 hmap

lemma readable_bareAll (forms : List Form) (h : Form.AllReadable forms) : Form.AllReadable (Form.bareAll forms) := by
  cases forms with
  | nil => trivial
  | cons f rest => exact ⟨readable_bare f h.1, readable_bareAll rest h.2⟩

end

/-- The nodes of a program are normal. -/
lemma normal_of_program {source : Text} {nodes : List Node} (h : program source = .ok nodes) :
    ∀ n ∈ nodes, n.Normal (.plain true) := by
  intro n hn
  obtain ⟨f, hmem, hf⟩ := exists_of_mem_collect h n hn
  exact (reads_of_nodeAt (p := .plain true) hf).normal (readable_bare f (readable_of_mem_forms hmem))

end Bilisp
