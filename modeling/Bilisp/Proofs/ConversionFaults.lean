import Bilisp.Feed
import Bilisp.Proofs.Spans

/-!
# Faults of conversions

The conversion of a form checks the form and converts forms inside it, so the fault of a conversion is about one
of them: a diagnostic that shows it and points at it, or the value of a character literal (`arisesIn_of_toNode`).
`FailsAs P` says that an operation fails only as `P` allows; it goes through every step of a conversion.
-/

namespace Bilisp

/-! ## Operations and their faults -/

/-- Whether an operation gives a result or has a fault that `P` allows. -/
def FailsAs {α : Type} (P : Fault → Prop) : Except Fault α → Prop
  | .error fault => P fault
  | .ok _ => True

section

variable {α β : Type} {P : Fault → Prop}

@[simp] lemma failsAs_pure (a : α) : FailsAs P (pure a) := trivial

@[simp] lemma failsAs_throw (fault : Fault) : FailsAs P (throw fault : Except Fault α) ↔ P fault := Iff.rfl

@[simp] lemma failsAs_bind (x : Except Fault α) (k : α → Except Fault β) :
    FailsAs P (x >>= k) ↔ FailsAs P x ∧ ∀ a, x = .ok a → FailsAs P (k a) := by
  cases x with
  | error fault => exact ⟨fun h => ⟨h, nofun⟩, And.left⟩
  | ok a => exact ⟨fun h => ⟨trivial, fun b hb => Except.ok.inj hb ▸ h⟩, fun h => h.2 a rfl⟩

@[simp] lemma failsAs_map (x : Except Fault α) (k : α → β) : FailsAs P (k <$> x) ↔ FailsAs P x := by
  rw [map_eq_pure_bind, failsAs_bind]
  exact and_iff_left fun _ _ => failsAs_pure _

lemma FailsAs.imp {Q : Fault → Prop} {x : Except Fault α} (h : FailsAs P x) (himp : ∀ fault, P fault → Q fault) :
    FailsAs Q x := by
  cases x with
  | error fault => exact himp fault h
  | ok a => trivial

lemma FailsAs.of_error {x : Except Fault α} {fault : Fault} (h : FailsAs P x) (hx : x = .error fault) :
    P fault := by
  subst hx
  exact h

/-- Items are handled with the faults of the feed and those of its items. -/
lemma failsAs_collect {γ : Type} {g : α → Except Fault γ} {feed : Feed α β} (hfeed : FailsAs P feed.ending)
    (hitems : ∀ a ∈ feed.items, FailsAs P (g a)) : FailsAs P (feed.collect g) := by
  induction feed with
  | done closing => trivial
  | failed fault => exact hfeed
  | next item rest ih =>
    have hrest := ih hfeed fun a ha => hitems a (List.mem_cons_of_mem _ ha)
    simp [Feed.collect, hitems item List.mem_cons_self, hrest]

end

/-! ## Forms inside a form -/

/-- The forms between the brackets of a form. -/
def Form.elements : Form → List Form
  | .atom _ _ => []
  | .compound _ elements _ => elements

/-- Whether a form is another one or stands inside it, at any depth. -/
inductive Form.Contains : Form → Form → Prop
  | self (f : Form) : Contains f f
  | element {shape : Shape} {elements : List Form} {span : Option Span} {f g : Form} (hf : f ∈ elements)
    (hg : Contains f g) : Contains (.compound shape elements span) g

lemma contains_atom_iff {value : Atom} {span : Option Span} {g : Form} :
    (Form.atom value span).Contains g ↔ g = .atom value span := by
  constructor
  · rintro ⟨⟩
    rfl
  · rintro rfl
    exact .self _

lemma contains_compound_iff {shape : Shape} {elements : List Form} {span : Option Span} {g : Form} :
    (Form.compound shape elements span).Contains g ↔
      g = .compound shape elements span ∨ ∃ f ∈ elements, f.Contains g := by
  constructor
  · rintro (_ | ⟨hf, hg⟩)
    · exact .inl rfl
    · exact .inr ⟨_, hf, hg⟩
  · rintro (rfl | ⟨f, hf, hg⟩)
    · exact .self _
    · exact .element hf hg

lemma Form.Contains.trans {f g h : Form} (hg : f.Contains g) (hh : g.Contains h) : f.Contains h := by
  induction hg with
  | self => exact hh
  | element hf _ ih => exact .element hf (ih hh)

/-- Whether a fault is about a form or about one inside it: it is a diagnostic that shows it and points at it, or
it says why the value of a character is none. -/
inductive Fault.ArisesIn (f : Form) : Fault → Prop
  | structureOf {g : Form} (kind problem : Text) (h : f.Contains g) : ArisesIn f (.structureOf kind g problem)
  | countOf {g : Form} (kind expected : Text) (found : Nat) (h : f.Contains g) :
    ArisesIn f (.countOf kind g expected found)
  | literal {text : Text} {span : Option Span} {e : LiteralError}
    (h : f.Contains (.atom (.character text) span)) (he : Literal.ofText text = .error e) : ArisesIn f (.literal e)

lemma Fault.ArisesIn.lift {shape : Shape} {elements : List Form} {span : Option Span} {f : Form} {fault : Fault}
    (h : fault.ArisesIn f) (hf : f ∈ elements) : fault.ArisesIn (.compound shape elements span) := by
  cases h with
  | structureOf kind problem h => exact .structureOf kind problem (.element hf h)
  | countOf kind expected found h => exact .countOf kind expected found (.element hf h)
  | literal h he => exact .literal (.element hf h) he

/-! ## Lists of forms -/

variable {P : Fault → Prop}

/-- Whether a form is converted, in every way, with faults that `P` allows. -/
structure Form.ConvertsAs (P : Fault → Prop) (f : Form) : Prop where
  node : ∀ top, FailsAs P (f.toNode top)
  quoted : FailsAs P f.toQuotedNode
  parts : FailsAs P (toNodes f.elements)

/-- Whether `P` allows the diagnostics that point at a form. -/
structure Form.CitedAs (P : Fault → Prop) (f : Form) : Prop where
  structureOf : ∀ kind problem, P (.structureOf kind f problem)
  countOf : ∀ kind expected found, P (.countOf kind f expected found)

section

variable {forms : List Form}

lemma failsAs_toNodes (h : ∀ f ∈ forms, FailsAs P (f.toNode false)) : FailsAs P (Form.toNodes forms) := by
  induction forms with
  | nil => trivial
  | cons f rest ih =>
    have hrest := ih fun g hg => h g (List.mem_cons_of_mem _ hg)
    simp [Form.toNodes, h f List.mem_cons_self, hrest]

lemma failsAs_toTopNodes (h : ∀ f ∈ forms, FailsAs P (f.toNode true)) : FailsAs P (Form.toTopNodes forms) := by
  induction forms with
  | nil => trivial
  | cons f rest ih =>
    have hrest := ih fun g hg => h g (List.mem_cons_of_mem _ hg)
    simp [Form.toTopNodes, h f List.mem_cons_self, hrest]

lemma failsAs_toQuotedNodes (h : ∀ f ∈ forms, FailsAs P f.toQuotedNode) : FailsAs P (Form.toQuotedNodes forms) := by
  induction forms with
  | nil => trivial
  | cons f rest ih =>
    have hrest := ih fun g hg => h g (List.mem_cons_of_mem _ hg)
    simp [Form.toQuotedNodes, h f List.mem_cons_self, hrest]

end

/-! ## Forms -/

lemma failsAs_atomNode {value : Atom} {span : Option Span}
    (hstructure : ∀ kind problem, P (.structureOf kind (.atom value span) problem))
    (hliteral : ∀ text e, value = .character text → Literal.ofText text = .error e → P (.literal e)) :
    FailsAs P (atomNode value span) := by
  cases value with
  | symbol name =>
    rw [atomNode]
    split
    · trivial
    · exact hstructure _ _
  | character text =>
    rw [atomNode]
    split
    · trivial
    next e he => exact hliteral text e rfl he
  | _ => trivial

/-- Every rule for a special form converts elements of the list, or the elements of one of its vectors, and its
own diagnostics point at the list or at an element. The symbol that leads the list has no part in this. -/
lemma failsAs_special {elements : List Form} (h : ∀ f ∈ elements.tail, f.ConvertsAs P)
    (hcited : ∀ f ∈ elements.tail, f.CitedAs P) (top : Bool) {whole : Form} (hwhole : whole.CitedAs P)
    (special : SpecialForm) : FailsAs P (Form.toSpecialNode top whole special elements) := by
  obtain ⟨hstructure, hcount⟩ := hwhole
  have hnode := fun f hf => (h f hf).node
  have hparts := fun f hf => (h f hf).parts
  have hstructures := fun f hf => (hcited f hf).structureOf
  have hcounts := fun f hf => (hcited f hf).countOf
  clear h hcited
  fun_cases Form.toSpecialNode top whole special elements
  all_goals try simp only [List.tail_cons] at hnode hparts hstructures hcounts
  all_goals try simp +zetaDelta [oddCount, hnode, hstructures, hcounts, hstructure, hcount]
  -- what remains are the elements behind the first ones and the elements of vectors
  all_goals try simp only [List.forall_mem_cons, Form.elements] at hnode hparts
  all_goals simp +contextual [failsAs_toNodes, failsAs_toTopNodes, hnode, hparts]

section

variable {f : Form} (h : ∀ g ∈ f.elements, g.ConvertsAs P) (hcited : ∀ g ∈ f.elements.tail, g.CitedAs P)
  (hatom : ∀ value span, f = .atom value span → FailsAs P (atomNode value span))
  (hcompound : ∀ shape elements span, f = .compound shape elements span → f.CitedAs P)

include h hcited hatom hcompound

/-- A form is checked, and then forms between its brackets are converted. -/
lemma failsAs_toNode (top : Bool) : FailsAs P (f.toNode top) := by
  have hspecial := fun shape elements span heq =>
    failsAs_special (fun g hg => h g (List.mem_of_mem_tail hg)) hcited top (hcompound shape elements span heq)
  have hstructure := fun shape elements span heq => (hcompound shape elements span heq).structureOf
  have hcount := fun shape elements span heq => (hcompound shape elements span heq).countOf
  have hnode := fun g hg => (h g hg).node
  have hquoted := fun g hg => (h g hg).quoted
  clear h hcited hcompound
  fun_cases Form.toNode top f
  all_goals simp_all +zetaDelta [failsAs_toNodes, failsAs_toQuotedNodes, Form.elements, oddCount]

omit hcited in
/-- In quoted mode too, a form is checked, and then forms between its brackets are converted. -/
lemma failsAs_toQuotedNode : FailsAs P f.toQuotedNode := by
  have hcount := fun shape elements span heq => (hcompound shape elements span heq).countOf
  have hnode := fun g hg => (h g hg).node
  have hquoted := fun g hg => (h g hg).quoted
  clear h hcompound
  fun_cases Form.toQuotedNode f
  all_goals simp_all +zetaDelta [failsAs_toQuotedNodes, Form.elements, oddCount]

/-- Diagnostics point at compound forms and at elements behind the first one. -/
lemma convertsAs_of_elements : f.ConvertsAs P :=
  ⟨failsAs_toNode h hcited hatom hcompound, failsAs_toQuotedNode h hatom hcompound,
    failsAs_toNodes fun g hg => (h g hg).node false⟩

end

/-- The diagnostics that point at a form are about it. -/
lemma citedAs {f : Form} (h : ∀ fault, fault.ArisesIn f → P fault) : f.CitedAs P :=
  ⟨fun kind problem => h _ (.structureOf kind problem (.self f)),
    fun kind expected found => h _ (.countOf kind expected found (.self f))⟩

/-- A form is converted with faults that are about the form or about one inside it. -/
theorem convertsAs {f : Form} (h : ∀ fault, fault.ArisesIn f → P fault) : f.ConvertsAs P := by
  induction f using Form.inductionOn with
  | atom value span =>
    refine convertsAs_of_elements nofun nofun ?_ fun _ _ _ _ => citedAs h
    rintro _ _ ⟨⟩
    refine failsAs_atomNode (citedAs h).structureOf ?_
    rintro text e rfl he
    exact h _ (.literal (.self _) he)
  | compound shape elements span ih =>
    have hlift : ∀ g ∈ elements, ∀ fault, fault.ArisesIn g → P fault := fun g hg fault hfault =>
      h fault (hfault.lift hg)
    exact convertsAs_of_elements (fun g hg => ih g hg (hlift g hg))
      (fun g hg => citedAs (hlift g (List.mem_of_mem_tail hg))) nofun fun _ _ _ _ => citedAs h

/-- The fault of a conversion is about the form or about one inside it. -/
theorem arisesIn_of_toNode {f : Form} {top : Bool} {fault : Fault} (h : f.toNode top = .error fault) :
    fault.ArisesIn f :=
  ((convertsAs fun _ h => h).node top).of_error h

end Bilisp
