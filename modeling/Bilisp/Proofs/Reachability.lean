import Mathlib.Logic.Relation
import Mathlib.Tactic.Common

/-!
# What is reached through parts

Trees of different kinds are walked in different ways, each given by a function from a place in a tree to the places
below it. A property that each place has exactly if it is sound itself and the places below have the property holds
exactly if everything that is reached is sound (`iff_forall_reaches`).
-/

namespace Bilisp

/-- Whether something is reached from something else, in any number of steps to parts. -/
def Reaches {α : Type} (parts : α → List α) : α → α → Prop :=
  Relation.ReflTransGen fun whole part => part ∈ parts whole

section

variable {α : Type} {parts : α → List α} {P : α → Prop} {a : α}

lemma reaches_self (parts : α → List α) (a : α) : Reaches parts a a := .refl

lemma Reaches.head {b c : α} (hb : b ∈ parts a) (h : Reaches parts b c) : Reaches parts a c :=
  Relation.ReflTransGen.head hb h

/-- What is reached is the whole, or it is reached from one of the parts. -/
lemma forall_reaches_iff :
    (∀ c, Reaches parts a c → P c) ↔ P a ∧ ∀ b ∈ parts a, ∀ c, Reaches parts b c → P c := by
  constructor
  · exact fun h => ⟨h a (reaches_self parts a), fun b hb c hc => h c (hc.head hb)⟩
  · rintro ⟨ha, hparts⟩ c hc
    rcases Relation.ReflTransGen.cases_head hc with rfl | ⟨b, hb, hbc⟩
    · exact ha
    · exact hparts b hb c hbc

/-- What holds of a whole if the whole is sound and it holds of the parts holds if everything reached is sound. The
parts of a whole have to be smaller. -/
theorem iff_forall_reaches {Q : α → Prop} (size : α → Nat) (hsize : ∀ {a b}, b ∈ parts a → size b < size a)
    {a : α} (hstep : ∀ b, Reaches parts a b → (Q b ↔ P b ∧ ∀ c ∈ parts b, Q c)) :
    Q a ↔ ∀ b, Reaches parts a b → P b := by
  induction hn : size a using Nat.strongRecOn generalizing a with
  | _ n ih =>
    subst hn
    rw [forall_reaches_iff, hstep a (reaches_self parts a)]
    refine and_congr_right fun _ => forall₂_congr fun b hb => ?_
    exact ih (size b) (hsize hb) (fun c hc => hstep c (hc.head hb)) rfl

/-- What holds of a whole if it is not bad itself and it holds of the parts fails if something bad is reached. -/
theorem not_iff_exists_reaches {Q Bad : α → Prop} (size : α → Nat) (hsize : ∀ {a b}, b ∈ parts a → size b < size a)
    {a : α} (hstep : ∀ b, Reaches parts a b → (Q b ↔ ¬Bad b ∧ ∀ c ∈ parts b, Q c)) :
    ¬Q a ↔ ∃ b, Reaches parts a b ∧ Bad b := by
  rw [iff_forall_reaches size hsize hstep]
  simp only [not_forall, not_not, exists_prop]

end

/-- What stands at one place after the other is what was put there. -/
lemma mem_of_mem_map_mk {α β : Type} {place : α} {items : List β} {v : α × β}
    (hv : v ∈ items.map (Prod.mk place)) : v.2 ∈ items := by
  obtain ⟨item, hitem, rfl⟩ := List.mem_map.1 hv
  exact hitem

end Bilisp
