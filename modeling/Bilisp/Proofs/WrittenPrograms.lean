import Bilisp.Proofs.Conversions
import Bilisp.Proofs.WrittenForms

/-!
# Programs of written forms

The forms of a layout are read back up to their places, so the program of the layout is made of the nodes of
the forms (`program_layout`). A form that gives a node inside another form gives the same node at top level.
-/

namespace Bilisp

/-! ## Levels -/

/-- Only a definition depends on where it stands. -/
lemma toSpecialNode_congr {special : SpecialForm} (h : special ≠ .definition) (whole : Form)
    (elements : List Form) (top top' : Bool) :
    Form.toSpecialNode top whole special elements = Form.toSpecialNode top' whole special elements := by
  rw [Form.toSpecialNode.eq_def, Form.toSpecialNode.eq_def]
  split <;> first | rfl | exact absurd rfl h

/-- A definition inside another form is a fault. -/
lemma toSpecialNode_definition {whole head : Form} {args : List Form} {n : Node} :
    Form.toSpecialNode false whole .definition (head :: args) ≠ .ok n := by
  intro h
  match args with
  | [] => cases h
  | [_] => cases h
  | [_, _] => cases h
  | _ :: _ :: _ :: _ => cases h

lemma toNode_topLevel {f : Form} {n : Node} (h : f.toNode false = .ok n) : f.toNode true = .ok n := by
  match f with
  | .atom value span => exact h
  | .compound .vector elements span => exact h
  | .compound .map elements span => exact h
  | .compound .set elements span => exact h
  | .compound .list [] span => exact h
  | .compound .list (first :: args) span =>
    rw [Form.toNode] at h ⊢
    split at h
    next name hhead =>
      split at h
      next special hspecial =>
        by_cases hdefinition : special = .definition
        · rw [hdefinition] at h
          exact absurd h toSpecialNode_definition
        · rwa [toSpecialNode_congr hdefinition _ _ true false]
      next hspecial => exact h
    next hhead => exact h

/-- What matches at any level is read at top level. -/
lemma Match.toNode_true {top : Bool} {n : Node} {f : Form} (h : Match (.plain top) n f) :
    f.toNode true = .ok n := by
  cases top with
  | true => exact h.toNode
  | false => exact toNode_topLevel h.toNode

/-! ## Layouts -/

lemma collect_ofList {pairs : List (Node × Form)} (h : ∀ q ∈ pairs, q.2.toNode true = .ok q.1)
    {fs : List Form} (hbare : Form.bareAll fs = Form.bareAll (pairs.map Prod.snd)) :
    (Feed.ofList fs).collect (Form.toNode true) = .ok (pairs.map Prod.fst) := by
  induction pairs generalizing fs with
  | nil =>
    cases fs with
    | nil => rfl
    | cons f fs => cases hbare
  | cons q pairs ih =>
    cases fs with
    | nil => cases hbare
    | cons f fs =>
      obtain ⟨hf, hfs⟩ := List.cons.inj hbare
      have hq := toNode_of_bare_eq hf.symm (h q List.mem_cons_self)
      have hrest := ih (fun r hr => h r (List.mem_cons_of_mem _ hr)) hfs
      change (do return (← f.toNode true) :: (← (Feed.ofList fs).collect (Form.toNode true))) = _
      rw [hq, hrest]
      rfl

/-- The program of a layout is made of the nodes of its forms. -/
theorem program_layout {pairs : List (Node × Form)} (hread : ∀ q ∈ pairs, q.2.toNode true = .ok q.1)
    (hreadable : ∀ q ∈ pairs, q.2.Readable) {blankLines : Int} (h : 0 ≤ blankLines) :
    program (Form.layout (pairs.map Prod.snd) blankLines) = .ok (pairs.map Prod.fst) := by
  have hforms : ∀ f ∈ pairs.map Prod.snd, f.Readable := by
    intro f hf
    obtain ⟨q, hq, rfl⟩ := List.mem_map.1 hf
    exact hreadable q hq
  obtain ⟨fs, hbare, hfeed⟩ := forms_layout hforms h
  rw [program, hfeed, collect_ofList hread hbare]

/-- The program of the text of one form is the node of the form. -/
lemma program_formText {f : Form} {n : Node} (hread : f.toNode true = .ok n) (hreadable : f.Readable) :
    program f.text = .ok [n] := by
  have hreads : ∀ q ∈ [(n, f)], q.2.toNode true = .ok q.1 := by simpa using hread
  have hprogram := program_layout hreads (by simpa using hreadable) le_rfl
  rwa [Form.layout, List.map_cons, List.map_nil, join_texts_singleton] at hprogram

/-- The program of a written form is the node alone. -/
theorem program_text {top : Bool} {n : Node} {f : Form} (h : Match (.plain top) n f) :
    program f.text = .ok [n] := program_formText h.toNode_true h.readable

end Bilisp
