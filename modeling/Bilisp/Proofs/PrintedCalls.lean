import Bilisp.Proofs.WrittenMembers

/-!
# Calls that are written and read

A call is written as a list behind whatever its callee is written as, which may be a keyword, a literal, or the name of
a special form or a macro. If the form of the callee leads calls and what is written for the call can be read at all,
it is read as a call with as many arguments (`call_read_back`).
-/

namespace Bilisp

open Node

/-! ## Lists that are calls -/

/-- A list is malformed nowhere if its first element leads calls. -/
lemma not_malformed_of_leadsCall {f : Form} (hleads : f.LeadsCall) (args : List Form) (r : Place) :
    ¬(Form.list (f :: args)).Malformed r := by
  cases f with
  | compound shape elements span => exact not_malformed rfl (by simp [Form.list])
  | atom value span =>
    cases value with
    | symbol name =>
      cases r with
      | plain top => exact not_malformed_call hleads.1
      | quoted =>
        intro h
        obtain ⟨rfl, -⟩ := malformed_quoted_iff.1 h
        exact absurd hleads.1 (by decide)
    | _ => exact hleads.elim

lemma length_nodesAt {p : Place} {forms : List Form} {nodes : List Node} (h : Form.nodesAt p forms = .ok nodes) :
    nodes.length = forms.length := by
  induction forms generalizing nodes with
  | nil => rcases p with (_ | _) | _ <;> cases h <;> rfl
  | cons f rest ih =>
    rw [nodesAt_cons] at h
    simp only [bind_eq_ok, pure_eq_ok] at h
    obtain ⟨n, -, others, hothers, rfl⟩ := h
    rw [List.length_cons, List.length_cons, ih hothers]

/-! ## One call -/

/-- If what is written for a call has a node, the node is a call with as many arguments. -/
lemma call_of_convertible {callee : Node} {args : List Node} {g : Form} (hratio : ratio? callee args = none)
    (hg : (Node.call callee args).toForm false = .ok g) (hconvertible : g.Convertible (.plain false))
    (hleads : literalShape? callee args = none → ∀ h, callee.toForm false = .ok h → h.LeadsCall) :
    ∃ callee' args', g.toNode false = .ok (.call callee' args') ∧ args'.length = args.length := by
  obtain ⟨-, fs, hforms, rfl⟩ := formAt_eq_ok.1 (show (Node.call callee args).formAt (.plain false) = .ok g from hg)
  rw [visits_plain (by simp) (by simp), List.forall₂_map_left_iff, plainParts, hratio, Option.isSome_none,
    if_neg Bool.false_ne_true] at hforms
  rw [assemble, assemblePlain, hratio] at hconvertible ⊢
  dsimp only at hconvertible ⊢
  obtain ⟨n, hn⟩ := hconvertible
  have hread : Form.toNode false (callForm callee args .list fs) = .ok n := hn
  rw [hread]
  cases callKind callee args with
  | @dictionary nodes heven =>
    rw [callParts_dictionary heven] at hforms
    rw [callForm_dictionary, Form.toNode, ← hforms.length_eq, heven, if_neg Nat.zero_ne_one] at hread
    simp only [bind_eq_ok, pure_eq_ok] at hread
    obtain ⟨read, hnodes, rfl⟩ := hread
    have hlength := length_nodesAt (p := .plain false) hnodes
    exact ⟨_, _, rfl, by rw [length_entries, length_entries, hlength, hforms.length_eq]⟩
  | @setOf items =>
    rw [callForm_setOf, Form.toNode] at hread
    simp only [bind_eq_ok, pure_eq_ok] at hread
    obtain ⟨read, -, rfl⟩ := hread
    exact ⟨_, _, rfl, rfl⟩
  | proper hshape =>
    rw [callParts_proper hshape] at hforms
    obtain ⟨f, gs, hf, hargs, rfl⟩ := List.forall₂_cons_left_iff.1 hforms
    rw [callForm_proper _ _ hshape, Form.list, toNode_call (hleads hshape f hf)] at hread
    simp only [bind_eq_ok, pure_eq_ok] at hread
    obtain ⟨callee', -, args', hargs', rfl⟩ := hread
    exact ⟨_, _, rfl, (length_nodesAt (p := .plain false) hargs').trans hargs.length_eq.symm⟩

/-- The call that a form is converted to can be written. If the form of its callee leads calls, the lists of calls and of
field accesses in what is written are not malformed, and the symbols have nodes, then this is converted to a call again,
with as many arguments. -/
theorem call_read_back {f : Form} {top : Bool} {callee : Node} {args : List Node} (hf : f.Readable)
    (hnode : f.toNode top = .ok (.call callee args)) (hratio : ratio? callee args = none) :
    ∃ g, (Node.call callee args).toForm false = .ok g ∧
      ((literalShape? callee args = none → ∀ h, callee.toForm false = .ok h → h.LeadsCall) →
        (Node.call callee args).Legible (.plain false) g →
        ∃ callee' args', g.toNode false = .ok (.call callee' args') ∧ args'.length = args.length) := by
  have hnormal : (Node.call callee args).Normal (.plain top) :=
    (reads_of_nodeAt (p := .plain top) hnode).normal (readable_bare f hf)
  have hinner : (Node.call callee args).Normal (.plain false) := by
    cases top with
    | false => exact hnormal
    | true =>
      cases hnormal with
      | statement h => exact h
  obtain ⟨g, hg⟩ := exists_form (p := .plain false) hinner
  have hwritten : (Node.call callee args).toForm false = .ok g := hg
  refine ⟨g, hwritten, fun hleads hlegible => ?_⟩
  have hconvertible := convertible_of_legible (p := .plain false) hinner hg hlegible
  exact call_of_convertible hratio hwritten hconvertible hleads

/-- A call of what another call gives. -/
def curriedCall : Node := .call (.call (.identifier "f") [.identifier "x"]) [.identifier "y"]

lemma nameForm_word {name : Text} (h : name ∈ (["f", "x", "y"] : List Text)) : nameForm name = .symbol name := by
  have hplain : ∀ name ∈ (["f", "x", "y"] : List Text), name ≠ nothingName ∧ '_' ∉ name := by decide
  obtain ⟨hne, hmark⟩ := hplain name h
  rw [nameForm_of_ne hne, unescapeSymbol_of_not_mem hmark]

lemma toForm_curriedCall :
    curriedCall.toForm false = .ok (.list [.list [.symbol "f", .symbol "x"], .symbol "y"]) := by
  have hform : curriedCall.toForm false = .ok (.list [.list [nameForm "f", nameForm "x"], nameForm "y"]) := rfl
  rw [hform, nameForm_word (by simp), nameForm_word (by simp), nameForm_word (by simp)]

/-- Both lists that are written for the node are led by forms that lead calls. -/
lemma not_malformed_curriedCall : ∀ v, Reaches converted (.plain false, curriedCall) v → v.2.IsLedByPart →
    ∀ f, v.2.formAt v.1 = .ok f → ∀ r, ¬f.Malformed r := by
  have hname (name : Text) : ∀ w, Reaches converted (.plain false, .identifier name) w → w.2.IsLedByPart →
      ∀ f, w.2.formAt w.1 = .ok f → ∀ r, ¬f.Malformed r :=
    forall_reaches_iff.2 ⟨fun hled => hled.elim, List.forall_mem_nil _⟩
  refine forall_reaches_iff.2 ⟨?_, List.forall_mem_cons.2 ⟨forall_reaches_iff.2 ⟨?_, List.forall_mem_cons.2
    ⟨hname "f", List.forall_mem_singleton.2 (hname "x")⟩⟩, List.forall_mem_singleton.2 (hname "y")⟩⟩
  · rintro - f ⟨⟩
    refine not_malformed_of_leadsCall ?_ _
    trivial
  · rintro - f ⟨⟩
    rw [nameForm_word (by simp)]
    refine not_malformed_of_leadsCall ?_ _
    exact ⟨by decide, by decide⟩

lemma legible_curriedCall {g : Form} (hg : curriedCall.toForm false = .ok g) :
    curriedCall.Legible (.plain false) g where
  symbols name span h := by
    have hsymbols : ∀ name ∈ (["f", "x", "y"] : List Text), symbolNode? name ≠ none := by decide
    refine hsymbols name ?_
    rw [← Except.ok.inj (toForm_curriedCall.symm.trans hg)] at h
    simp only [Form.list, Form.symbol, contains_compound_iff, contains_atom_iff, List.mem_cons, List.not_mem_nil,
      or_false, exists_eq_or_imp, exists_eq_left, reduceCtorEq, false_or, Form.atom.injEq, Atom.symbol.injEq] at h
    rw [List.mem_cons, List.mem_cons, List.mem_singleton]
    tauto
  lists q m r f hm hled hf _ := not_malformed_curriedCall (q, m) hm hled f hf r

theorem call_read_back_curried :
    let form : Form := .list [.list [.symbol "f", .symbol "x"], .symbol "y"]
    form.Readable ∧ form.toNode false = .ok curriedCall ∧
      ∃ g, curriedCall.toForm false = .ok g ∧
        ∃ callee args, g.toNode false = .ok (.call callee args) ∧ args.length = 1 := by
  intro form
  have hsymbol : ∀ name ∈ (["f", "x", "y"] : List Text), (Form.symbol name).Readable := fun name hmem =>
    readable_word (by revert name; decide)
  have hcallee : (Form.list [.symbol "f", .symbol "x"]).Readable :=
    readable_list (by simpa using ⟨hsymbol "f" (by simp), hsymbol "x" (by simp)⟩)
  have hform : form.Readable := readable_list (by simpa using ⟨hcallee, hsymbol "y" (by simp)⟩)
  have hnode : form.toNode false = .ok curriedCall := rfl
  have hleads : ∀ h, (Node.call (.identifier "f") [.identifier "x"]).toForm false = .ok h → h.LeadsCall := by
    rintro h ⟨⟩
    trivial
  obtain ⟨g, hg, hread⟩ := call_read_back hform hnode rfl
  exact ⟨hform, hnode, g, hg, hread (fun _ => hleads) (legible_curriedCall hg)⟩

/-- Whether a form is converted to a call for which another form is written that has no node. -/
def Form.Misread (f g : Form) : Prop :=
  f.Readable ∧ ∃ callee args, f.toNode false = .ok (.call callee args) ∧ ratio? callee args = none ∧
    (Node.call callee args).toForm false = .ok g ∧ ∃ fault, g.toNode false = .error fault

/-- A keyword leads no call, neither where the call itself is written nor where it is an argument, and a division in
front of a field is written to a symbol with an empty segment. -/
theorem call_misread :
    (Form.list [.headed "quote" [.symbol "x"]]).Misread (.list [.atom (.keyword "x") none]) ∧
      (Form.headed "f" [.list [.headed "quote" [.symbol "x"]]]).Misread
        (.headed "f" [.list [.atom (.keyword "x") none]]) ∧
      (Form.headed "f" [.headed "." [.symbol "/", .symbol "x"]]).Misread (.headed "f" [.symbol "/.x"]) := by
  have hsymbol : ∀ name ∈ (["f", "x", "/"] : List Text), (Form.symbol name).Readable := fun name hmem =>
    readable_word (by revert name; decide)
  have hquote : (Form.list [.headed "quote" [.symbol "x"]]).Readable := readable_list (List.forall_mem_singleton.2
    (readable_behind (by decide) (List.forall_mem_singleton.2 (hsymbol "x" (by simp)))))
  have hkeyword : keywordForm "x" = .atom (.keyword "x") none := by
    rw [keywordForm, if_neg (by decide), unescapeSymbol_of_not_mem (by decide)]
  have hfield : (Form.headed "." [.symbol "/", .symbol "x"]).Readable :=
    readable_behind (by decide) (by simpa using ⟨hsymbol "/" (by simp), hsymbol "x" (by simp)⟩)
  refine ⟨⟨hquote, .quote (.identifier "x"), [], rfl, rfl, ?_, _, rfl⟩,
    ⟨readable_behind (by decide) (List.forall_mem_singleton.2 hquote), .identifier "f",
      [.call (.quote (.identifier "x")) []], rfl, rfl, ?_, _, rfl⟩,
    ⟨readable_behind (by decide) (List.forall_mem_singleton.2 hfield), .identifier "f",
      [.dotAccess (.identifier "/") "x"], rfl, rfl, ?_, _, rfl⟩⟩
  · change Except.ok (Form.list [keywordForm "x"]) = _
    rw [hkeyword]
  · change Except.ok (Form.list [nameForm "f", .list [keywordForm "x"]]) = _
    rw [hkeyword, nameForm_word (by simp)]
    rfl
  · change Except.ok (Form.list [nameForm "f", fieldForm (nameForm "/") (unescapeSymbol "x")]) = _
    rw [nameForm_word (by simp), nameForm_of_ne (by decide), unescapeSymbol_of_not_mem (by decide),
      unescapeSymbol_of_not_mem (by decide)]
    rfl

end Bilisp
