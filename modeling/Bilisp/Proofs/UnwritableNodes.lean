import Bilisp.Proofs.PrintedNodes
import Bilisp.Proofs.Reachability

/-!
# Nodes without a form

A node has no form exactly if one of four shapes stands in it where it is written outside macro calls
(`unwritable_iff`): an assignment that is neither a statement nor a binding, a comparison or a range of the wrong
length, and bindings that bind nothing. The dictionaries, sets, ratios and signatures that are written in a way of
their own change nothing in this, as everything they leave out has a form.
-/

namespace Bilisp

namespace Node

/-- The nodes inside a node with the places where they are written. Statements of a module and bindings of a block
have the place of statements. Arguments of a macro call are quoted, with everything in them, and a quotation ends
this. -/
def placed : Place × Node → List (Place × Node)
  | (.quoted, .quote value) => [(.plain false, value)]
  | (.quoted, n) => n.children.map (Prod.mk .quoted)
  | (.plain _, .macroCall _ args) => args.map (Prod.mk .quoted)
  | (.plain _, .moduleBlock name body) => (.plain false, name) :: body.map (Prod.mk (.plain true))
  | (.plain _, .letBlock bindings body) => (.plain false, body) :: bindings.map (Prod.mk (.plain true))
  | (.plain _, n) => n.children.map (Prod.mk (.plain false))

/-- The nodes that have no form, whatever stands in them. -/
inductive Unwritable : Place → Node → Prop
  | assignment (target value : Node) : Unwritable (.plain false) (.assignment target value)
  | comparison {top : Bool} {operands : List Node} (h : operands.length ≠ 3) :
    Unwritable (.plain top) (.comparison operands)
  | range {top : Bool} {parts : List Node} (h : parts.length < 2 ∨ 3 < parts.length) :
    Unwritable (.plain top) (.range parts)
  | binding {top : Bool} {bindings : List Node} {body n : Node} (hn : n ∈ bindings)
    (hassignment : ∀ target value, n ≠ .assignment target value) (hname : ∀ name, n ≠ .identifier name) :
    Unwritable (.plain top) (.letBlock bindings body)

/-- Whether a node has a form at a place. -/
def Writable (p : Place) (n : Node) : Prop := ∃ f, n.formAt p = .ok f

end Node

/-! ## Nodes that fit -/

lemma isBinding_iff (n : Node) :
    n.IsBinding ↔ (∃ target value, n = .assignment target value) ∨ ∃ name, n = .identifier name := by
  cases n <;> simp [Node.IsBinding]

/-- A node fits where it stands if it is none of those that have no form. -/
lemma fits_iff {p : Place} {n : Node} : n.Fits p ↔ ¬n.Unwritable p := by
  constructor
  · intro hfits hn
    cases hn with
    | assignment target value => cases hfits
    | comparison h => exact h hfits
    | range h =>
      rcases hfits with hlength | hlength
      · omega
      · omega
    | binding hn hassignment hname =>
      rcases (isBinding_iff _).1 (hfits _ hn) with ⟨target, value, rfl⟩ | ⟨name, rfl⟩
      · exact hassignment target value rfl
      · exact hname name rfl
  · intro h
    rcases p with top | _
    · cases n with
      | assignment target value =>
        cases top with
        | true => rfl
        | false => exact absurd (.assignment target value) h
      | comparison operands => exact not_not.1 fun hlength => h (.comparison hlength)
      | range parts =>
        have hlength : ¬(parts.length < 2 ∨ 3 < parts.length) := fun hlength => h (.range hlength)
        change parts.length = 2 ∨ parts.length = 3
        omega
      | letBlock bindings body =>
        intro m hm
        rw [isBinding_iff]
        by_contra hnone
        rw [not_or, not_exists, not_exists] at hnone
        exact h (.binding hm (fun target value heq => hnone.1 target ⟨value, heq⟩) hnone.2)
      | _ => trivial
    · trivial

/-! ## Parts that are left out -/

section

variable {p : Place}

lemma writable_iff {n : Node} : n.Writable p ↔ n.Fits p ∧ ∀ v ∈ n.visits p, v.2.Writable v.1 :=
  exists_formAt_iff

lemma writable_identifier (p : Place) (name : Text) : (Node.identifier name).Writable p := by
  cases p <;> exact ⟨nameForm name, rfl⟩

lemma writable_literal (p : Place) (value : Literal) : (Node.literal value).Writable p := by
  cases p <;> exact ⟨value.form, rfl⟩

lemma forall_map_writable {nodes : List Node} :
    (∀ v ∈ nodes.map (Prod.mk p), v.2.Writable v.1) ↔ ∀ n ∈ nodes, n.Writable p := List.forall_mem_map

/-- A vector and an entry of a dictionary have a form if what stands in them has one. -/
lemma writable_vector {items : List Node} :
    (Node.vector items).Writable p.inner ↔ ∀ n ∈ items, n.Writable p.inner := by
  rw [writable_iff]
  cases p with
  | plain top => exact (and_iff_right trivial).trans forall_map_writable
  | quoted => exact (and_iff_right trivial).trans forall_map_writable

lemma literalShape?_entry (key value : Node) : literalShape? (.identifier "=>") [key, value] = none := by
  simp [literalShape?, Node.dictPairs?, Node.setItems?]

lemma ratio?_entry (key value : Node) : (ratio? (.identifier "=>") [key, value]).isSome = false := by
  have hname : "=>".toList ≠ "//".toList := by decide
  unfold ratio?
  split
  next hcallee _ =>
    rw [← Node.identifier.inj hcallee, if_neg fun h => hname h.1]
    rfl
  next => rfl

lemma writable_entry {key value : Node} :
    (Node.call (.identifier "=>") [key, value]).Writable p.inner ↔
      key.Writable p.inner ∧ value.Writable p.inner := by
  have hparts : (Node.call (.identifier "=>") [key, value]).visits p.inner =
      [.identifier "=>", key, value].map (Prod.mk p.inner) := by
    have hcall := callParts_proper (literalShape?_entry key value)
    cases p with
    | plain top =>
      rw [Place.inner, Node.visits, Node.plainParts, ratio?_entry, if_neg Bool.false_ne_true, hcall]
      · simp
      · simp
    | quoted =>
      rw [Place.inner, Node.visits, Node.quotedParts, hcall]
      simp
  have hfits : (Node.call (.identifier "=>") [key, value]).Fits p.inner := by cases p <;> trivial
  rw [writable_iff, and_iff_right hfits, hparts, forall_map_writable, List.forall_mem_cons, List.forall_mem_cons,
    List.forall_mem_singleton, and_iff_right (writable_identifier _ _)]

lemma writable_entries {nodes : List Node} (heven : nodes.length % 2 = 0) :
    (∀ n ∈ Node.entries nodes, n.Writable p.inner) ↔ ∀ n ∈ nodes, n.Writable p.inner := by
  induction nodes, heven using even_induction with
  | nil => rfl
  | pair key value rest _ ih => simp only [Node.entries, List.forall_mem_cons, writable_entry, ih, and_assoc]

/-- The parts of a call that are written have forms if all of its parts have. -/
lemma writable_callParts (callee : Node) (args : List Node) :
    (∀ n ∈ Node.callParts callee args, n.Writable p.inner) ↔ ∀ n ∈ callee :: args, n.Writable p.inner := by
  cases callKind callee args with
  | dictionary heven =>
    rw [callParts_dictionary heven, List.forall_mem_cons, writable_entries heven,
      and_iff_right (writable_identifier _ _)]
  | setOf =>
    rw [callParts_setOf, List.forall_mem_cons, List.forall_mem_singleton, writable_vector,
      and_iff_right (writable_identifier _ _)]
  | proper hshape => rw [callParts_proper hshape]

lemma writable_ratio {callee : Node} {args : List Node} {ratio : Rat} (h : ratio? callee args = some ratio) :
    ∀ n ∈ callee :: args, n.Writable p := by
  unfold ratio? at h
  split at h
  · simp [writable_identifier, writable_literal]
  · cases h

lemma writable_bindings {bindings : List Node} (h : ∀ n ∈ bindings, n.IsBinding) :
    (∀ n ∈ bindings.flatMap Node.bindingParts, n.Writable (.plain false)) ↔
      ∀ n ∈ bindings, n.Writable (.plain true) := by
  rw [List.forall_mem_flatMap]
  refine forall₂_congr fun n hn => ?_
  rcases (isBinding_iff n).1 (h n hn) with ⟨target, value, rfl⟩ | ⟨name, rfl⟩
  · rw [writable_iff]
    exact (and_iff_right rfl).symm.trans (and_congr_right' forall_map_writable.symm)
  · simp [Node.bindingParts, writable_identifier]

end

/-! ## One step -/

/-- What the conversion of a node visits has forms if everything inside the node has, where it is written. -/
lemma writable_visits {p : Place} {n : Node} (h : n.Fits p) :
    (∀ v ∈ n.visits p, v.2.Writable v.1) ↔ ∀ v ∈ Node.placed (p, n), v.2.Writable v.1 := by
  cases p with
  | plain top =>
    cases n with
    | quote value =>
      cases value with
      | identifier name =>
        simp [Node.visits, Node.plainParts, Node.placed, Node.children, Node.parts, writable_identifier]
      | _ => rfl
    | call callee args =>
      rw [Node.visits, Node.placed, forall_map_writable, forall_map_writable, Node.plainParts]
      · cases hratio : ratio? callee args with
        | some ratio => exact iff_of_true (List.forall_mem_nil _) (writable_ratio hratio)
        | none => exact writable_callParts (p := .plain top) callee args
      all_goals simp
    | comparison operands =>
      obtain ⟨left, operator, right, rfl⟩ := List.length_eq_three.1 h
      rw [Node.visits, Node.placed, forall_map_writable, forall_map_writable]
      · simp [Node.plainParts, Node.children, Node.parts, and_left_comm]
      all_goals simp
    | letBlock bindings body =>
      rw [Node.visits, Node.placed, forall_map_writable, Node.plainParts, List.forall_mem_append,
        writable_bindings h, List.forall_mem_singleton, List.forall_mem_cons (a := (Place.plain false, body)),
        forall_map_writable, and_comm]
      all_goals simp
    | _ => rfl
  | quoted =>
    cases n with
    | call callee args =>
      rw [Node.visits, Node.placed, forall_map_writable, forall_map_writable]
      · exact writable_callParts (p := .quoted) callee args
      all_goals simp
    | function name params body =>
      rw [Node.visits, Node.placed, forall_map_writable, forall_map_writable]
      · change (∀ n ∈ Node.callParts name params ++ [body], _) ↔ ∀ n ∈ (name :: params) ++ [body], _
        rw [List.forall_mem_append, List.forall_mem_append]
        exact and_congr_left' (writable_callParts (p := .quoted) name params)
      all_goals simp
    | _ => rfl

lemma writable_iff_placed {p : Place} {n : Node} :
    n.Writable p ↔ ¬n.Unwritable p ∧ ∀ v ∈ Node.placed (p, n), v.2.Writable v.1 := by
  rw [writable_iff, ← fits_iff]
  exact and_congr_right writable_visits

lemma sizeOf_children {n m : Node} (hm : m ∈ n.children) : sizeOf m < sizeOf n := by
  have hlist {items : List Node} (h : m ∈ items) : sizeOf m < sizeOf items := List.sizeOf_lt_of_mem h
  cases n <;> grind [Node.children, Node.parts]

/-- What is placed in a node stands inside it. -/
lemma mem_children_of_mem_placed {w v : Place × Node} (hv : v ∈ Node.placed w) : v.2 ∈ w.2.children := by
  unfold Node.placed at hv
  split at hv
  case h_1 => exact List.mem_singleton.1 hv ▸ List.mem_cons_self
  case h_2 | h_3 | h_6 => exact mem_of_mem_map_mk hv
  case h_4 | h_5 =>
    rcases List.mem_cons.1 hv with rfl | hv
    · exact List.mem_cons_self
    · exact List.mem_cons_of_mem _ (mem_of_mem_map_mk hv)

/-! ## All nodes -/

lemma exists_fault_iff {p : Place} {n : Node} :
    (∃ fault, n.formAt p = .error fault) ↔ ∃ q m, Reaches Node.placed (p, n) (q, m) ∧ m.Unwritable q := by
  have hwritable : ¬n.Writable p ↔ ∃ v, Reaches Node.placed (p, n) v ∧ v.2.Unwritable v.1 :=
    not_iff_exists_reaches (a := (p, n)) (Q := fun v => v.2.Writable v.1) (fun v => sizeOf v.2)
      (fun hv => sizeOf_children (mem_children_of_mem_placed hv)) fun v _ => writable_iff_placed
  rw [exists_error_iff, ← Node.Writable, hwritable, Prod.exists]

/-- A node has no form exactly if somewhere outside the arguments of its macro calls, or in a quotation inside them,
stands an assignment that is neither a statement of the program or of a module nor a binding, a comparison that has
not three operands, a range that has not two or three parts, or a block of which some binding is neither an
assignment nor a name. The same holds of the argument of a macro call, which is quoted from the beginning. -/
theorem toForm_fails_iff (n : Node) :
    (∀ top, (∃ fault, n.toForm top = .error fault) ↔
      ∃ p m, Reaches Node.placed (.plain top, n) (p, m) ∧ m.Unwritable p) ∧
    ((∃ fault, n.toQuotedForm = .error fault) ↔
      ∃ p m, Reaches Node.placed (.quoted, n) (p, m) ∧ m.Unwritable p) :=
  ⟨fun top => exists_fault_iff (p := .plain top), exists_fault_iff (p := .quoted)⟩

end Bilisp
