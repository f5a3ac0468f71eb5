import Bilisp.Proofs.SettledPaths

/-!
# Programs whose text settles

What is written for a settled node is read as something that is written in the same way, so the canonical text
of a program of settled nodes is its own canonical text (`canonicalText_settled`). The proof goes one step at a
time: if the parts of a node appear again, the node does.
-/

namespace Bilisp

open Node

/-! ## Calls -/

section

variable {callee other : Node} {args others : List Node}

/-- What is not written as a ratio is not read again as something that is. -/
lemma ratio?_alike (hcallee : callee.Alike other) (hargs : List.Forall₂ Alike args others)
    (h : ratio? callee args = none) : ratio? other others = none := by
  unfold ratio?
  split
  next name num den =>
    obtain ⟨first, _, hfirst, hrest, rfl⟩ := List.forall₂_cons_right_iff.1 hargs
    obtain ⟨second, _, hsecond, hnil, rfl⟩ := List.forall₂_cons_right_iff.1 hrest
    rw [hcallee.identifier, ← hfirst.int num rfl, ← hsecond.int den rfl, List.forall₂_nil_right_iff.1 hnil] at h
    exact h
  next => rfl

lemma exists_entries_of_alike {nodes : List Node} (heven : nodes.length % 2 = 0)
    (h : List.Forall₂ Alike args (entries nodes)) : ∃ parts, parts.length % 2 = 0 ∧ args = entries parts := by
  fun_induction entries nodes generalizing args with
  | case1 key value rest ih =>
    obtain ⟨first, _, hfirst, hrest, rfl⟩ := List.forall₂_cons_right_iff.1 h
    obtain ⟨key', value', rfl⟩ := hfirst.entry _ _ _ rfl
    obtain ⟨parts, hparts, rfl⟩ := ih (by rw [List.length_cons, List.length_cons] at heven; omega) hrest
    exact ⟨key' :: value' :: parts, by rw [List.length_cons, List.length_cons]; omega, rfl⟩
  | case2 => exact ⟨[], rfl, List.forall₂_nil_right_iff.1 h⟩

/-- What is not written as a map or a set is not read again as something that is. -/
lemma literalShape?_alike (hcallee : callee.Alike other) (hargs : List.Forall₂ Alike args others)
    (h : literalShape? callee args = none) : literalShape? other others = none := by
  cases callKind other others with
  | dictionary heven =>
    obtain ⟨parts, -, rfl⟩ := exists_entries_of_alike heven hargs
    rw [hcallee.identifier, literalShape?_dictionary] at h
    cases h
  | setOf =>
    obtain ⟨first, _, hfirst, hnil, rfl⟩ := List.forall₂_cons_right_iff.1 hargs
    obtain ⟨items, rfl⟩ := hfirst.vector _ rfl
    rw [hcallee.identifier, List.forall₂_nil_right_iff.1 hnil, literalShape?_setOf] at h
    cases h
  | proper hshape => exact hshape

lemma alike_call (hcallee : callee.Alike other) (hlength : args.length = others.length) :
    (Node.call callee args).Alike (.call other others) where
  path := nofun
  int := nofun
  vector := nofun
  entry name key value heq := by
    obtain ⟨rfl, rfl⟩ := Node.call.inj heq
    obtain ⟨key', value', rfl⟩ := List.length_eq_two.1 hlength
    exact ⟨key', value', by rw [hcallee.identifier]⟩

end

lemma length_entries (nodes : List Node) : (entries nodes).length = nodes.length / 2 := by
  fun_induction entries nodes with
  | case1 key value rest ih =>
    rw [List.length_cons, List.length_cons, List.length_cons, ih]
    omega
  | case2 nodes hnodes =>
    rcases nodes with _ | ⟨key, _ | ⟨value, rest⟩⟩
    · rfl
    · simp
    · exact absurd rfl (hnodes key value rest)

section

variable {top : Bool} {callee : Node} {args : List Node} {fs : List Form}

lemma alike_dictionary {nodes others : List Node} (hlength : nodes.length = others.length) :
    (dictionary nodes).Alike (dictionary others) where
  path := nofun
  int := nofun
  vector := nofun
  entry name key value heq := by
    obtain ⟨hname, hentries⟩ := Node.call.inj heq
    have hcount := congrArg List.length hentries
    rw [length_entries, ← hlength, ← length_entries] at hcount
    obtain ⟨key', value', hentries'⟩ := List.length_eq_two.1 hcount
    exact ⟨key', value', by rw [dictionary, hentries', hname]⟩

lemma reappears_dictionary {nodes : List Node} (heven : nodes.length % 2 = 0)
    (hparts : List.Forall₂ (Reappears false) nodes fs) :
    (dictionary nodes).Reappears top (.compound .map fs none) := by
  obtain ⟨pairs, hpairs, halike, hspells⟩ := exists_alikePairs hparts
  have hlength := length_alikePairs halike
  refine ⟨dictionary (pairs.map Prod.fst), ?_, alike_dictionary (hlength.trans (List.length_map _).symm)⟩
  rw [Form.reread, rereadAll_eq_map, ← hpairs]
  exact .dictionary hspells (hlength ▸ heven)

lemma reappears_setOf {items : List Node} (hparts : List.Forall₂ (Reappears false) items fs) :
    (setOf items).Reappears top (.compound .set fs none) := by
  obtain ⟨pairs, hpairs, -, hspells⟩ := exists_alikePairs hparts
  refine ⟨setOf (pairs.map Prod.fst), ?_, alike_of_not_recognized rfl⟩
  rw [Form.reread, rereadAll_eq_map, ← hpairs]
  exact .setOf hspells

/-- A call of parts that appear again appears again, if what its callee is read as leads calls. -/
lemma reappears_call (hleads : ∀ f, callee.toForm false = .ok f → f.reread.LeadsCall)
    (hratio : ratio? callee args = none)
    (hforms : List.Forall₂ (fun n f => n.toForm false = .ok f) (callParts callee args) fs)
    (hparts : List.Forall₂ (Reappears false) (callParts callee args) fs) :
    (Node.call callee args).Reappears top (callForm callee args .list fs) := by
  cases callKind callee args with
  | dictionary heven =>
    rw [callForm_dictionary]
    rw [callParts_dictionary heven] at hparts
    exact reappears_dictionary heven hparts
  | setOf =>
    rw [callForm_setOf]
    rw [callParts_setOf] at hparts
    exact reappears_setOf hparts
  | proper hshape =>
    rw [callForm_proper _ _ hshape]
    rw [callParts_proper hshape] at hforms hparts
    obtain ⟨f, gs, ⟨m, hm, halike⟩, hargs, rfl⟩ := List.forall₂_cons_left_iff.1 hparts
    have hcallee := hleads f (List.forall₂_cons.1 hforms).1
    obtain ⟨pairs, hpairs, halikes, hspells⟩ := exists_alikePairs hargs
    refine ⟨.call m (pairs.map Prod.fst), ?_, alike_call halike halikes.length_eq⟩
    rw [reread_list, List.map_cons, ← hpairs]
    exact .call hm hcallee hspells (ratio?_alike halike halikes hratio)
      (literalShape?_alike halike halikes hshape)

/-! ## Bodies -/

lemma exists_concat_of_forall₂ {R : Node → Form → Prop} {nodes : List Node} {n : Node}
    (h : List.Forall₂ R (nodes ++ [n]) fs) :
    ∃ init f, fs = init ++ [f] ∧ List.Forall₂ R nodes init ∧ R n f := by
  induction nodes generalizing fs with
  | nil =>
    obtain ⟨f, gs, hf, hgs, rfl⟩ := List.forall₂_cons_left_iff.1 h
    rw [List.forall₂_nil_left_iff.1 hgs]
    exact ⟨[], f, rfl, .nil, hf⟩
  | cons m rest ih =>
    obtain ⟨g, gs, hg, hgs, rfl⟩ := List.forall₂_cons_left_iff.1 h
    obtain ⟨init, f, rfl, hinit, hf⟩ := ih hgs
    exact ⟨g :: init, f, rfl, .cons hg hinit, hf⟩

/-- The statements of what the body of a function is read as. -/
lemma exists_statements {m : Node} {f : Form} (h : Spells (.plain false) m f.reread) :
    ∃ pairs : List (Node × Form), pairs.map Prod.snd = (splicedBody f).map Form.reread ∧ pairs ≠ [] ∧
      (∀ q, pairs = [q] → splicedBody q.2 = [q.2]) ∧ ∀ q ∈ pairs, Spells (.plain false) q.1 q.2 := by
  by_cases hdo : ∃ place forms span, f.reread = .compound .list (.atom (.symbol "do") place :: forms) span
  · obtain ⟨place, forms, span, heq⟩ := hdo
    rw [heq] at h
    obtain ⟨rest, rfl, rfl⟩ := exists_list_of_reread heq
    obtain ⟨pairs, -, hpairs, hlength, hspells⟩ := h.do_cases
    refine ⟨pairs, hpairs, ?_, fun q hq => ?_, hspells⟩
    · rintro rfl
      simp at hlength
    · rw [hq] at hlength
      simp at hlength
  · have hreread : ∀ place forms span, f.reread ≠ .compound .list (.atom (.symbol "do") place :: forms) span :=
      fun place forms span heq => hdo ⟨place, forms, span, heq⟩
    have hf : ∀ place forms span, f ≠ .compound .list (.atom (.symbol "do") place :: forms) span := by
      rintro place forms span rfl
      exact hreread place (forms.map Form.reread) span (by rw [Form.reread, rereadAll_eq_map]; rfl)
    refine ⟨[(m, f.reread)], ?_, List.cons_ne_nil _ _, fun q hq => ?_, List.forall_mem_singleton.2 h⟩
    · rw [splicedBody_of_ne hf]
      rfl
    · obtain rfl := List.singleton_injective hq
      exact splicedBody_of_ne hreread

lemma reappears_lambda {params : List Node} {body : Node}
    (hparts : List.Forall₂ (Reappears false) (params ++ [body]) fs) :
    (Node.lambda params body).Reappears top (.headed "fn" [.vector fs.dropLast, fs.getLastD .nil]) := by
  obtain ⟨init, f, rfl, hparams, m, hm, -⟩ := exists_concat_of_forall₂ hparts
  obtain ⟨pairs, hpairs, -, hspells⟩ := exists_alikePairs hparams
  rw [List.dropLast_concat, List.getLastD_concat]
  refine ⟨.lambda (pairs.map Prod.fst) m, ?_, alike_of_not_recognized rfl⟩
  rw [reread_headed (by decide), List.map_cons, List.map_cons, List.map_nil, reread_vector, ← hpairs]
  exact .lambda hspells hm

lemma even_bindingParts (parts : List Node) : ((assignments parts).flatMap bindingParts).length % 2 = 0 := by
  fun_induction assignments parts with
  | case1 target value rest ih =>
    rw [List.flatMap_cons, List.length_append]
    simp only [bindingParts, List.length_cons, List.length_nil]
    omega
  | case2 => rfl

lemma reappears_letBlock {parts : List Node} {body : Node}
    (hparts : List.Forall₂ (Reappears false) ((assignments parts).flatMap bindingParts ++ [body]) fs) :
    (Node.letBlock (assignments parts) body).Reappears top
      (.headed "let" [.vector fs.dropLast, fs.getLastD .nil]) := by
  obtain ⟨init, f, rfl, hbindings, m, hm, -⟩ := exists_concat_of_forall₂ hparts
  obtain ⟨pairs, hpairs, halike, hspells⟩ := exists_alikePairs hbindings
  rw [List.dropLast_concat, List.getLastD_concat]
  refine ⟨.letBlock (assignments (pairs.map Prod.fst)) m, ?_, alike_of_not_recognized rfl⟩
  rw [reread_headed (by decide), List.map_cons, List.map_cons, List.map_nil, reread_vector, ← hpairs]
  exact .letBlock hspells (length_alikePairs halike ▸ even_bindingParts parts) hm

lemma reappears_function {name body : Node} {params : List Node}
    (hname : top = true ∨ ∀ items, name ≠ .vector items)
    (hparts : List.Forall₂ (Reappears false) (name :: (params ++ [body])) fs) :
    (Node.function name params body).Reappears top (.headed (if top then "defn" else "fn")
      (fs.headD .nil :: .vector fs.tail.dropLast :: splicedBody (fs.tail.getLastD .nil))) := by
  obtain ⟨g, gs, ⟨k, hk, halike⟩, hrest, rfl⟩ := List.forall₂_cons_left_iff.1 hparts
  obtain ⟨init, f, rfl, hparams, m, hm, -⟩ := exists_concat_of_forall₂ hrest
  obtain ⟨pairs, hpairs, -, hspells⟩ := exists_alikePairs hparams
  obtain ⟨statements, hstatements, hne, hsingle, hspelled⟩ := exists_statements hm
  rw [List.headD_cons, List.tail_cons, List.dropLast_concat, List.getLastD_concat]
  refine ⟨.function k (pairs.map Prod.fst) (.sequence (statements.map Prod.fst)), ?_, alike_of_not_recognized rfl⟩
  have hword : (if top then "defn".toList else "fn") ∉ literalNames := by cases top <;> decide
  rw [reread_headed hword, List.map_cons, List.map_cons, reread_vector, ← hpairs, ← hstatements]
  refine .function hk hspells hspelled hne hsingle (hname.imp_right fun hvector items span heq => ?_)
  rw [heq] at hk
  obtain ⟨items', rfl⟩ := hk.vector_cases
  obtain ⟨others, rfl⟩ := halike.vector _ rfl
  exact hvector others rfl

/-! ## Ranges, quotations and macro calls -/

lemma assemblePlain_closedRange {parts : List Node} (h : ¬∃ start, parts = [start, .identifier "end"]) :
    (Node.range parts).assemblePlain top fs = .headed ":" fs := by
  unfold assemblePlain
  split
  any_goals first | rfl | contradiction
  next start name heq =>
    obtain rfl := Node.range.inj heq
    have hname : name ≠ "end".toList := by
      rintro rfl
      exact h ⟨start, rfl⟩
    rw [if_neg hname]

lemma reappears_range {parts : List Node} (hlength : parts.length = 2 ∨ parts.length = 3)
    (hparts : List.Forall₂ (Reappears false) parts fs) :
    (Node.range parts).Reappears top ((Node.range parts).assemblePlain top fs) := by
  by_cases hopen : ∃ start, parts = [start, .identifier "end"]
  · obtain ⟨start, rfl⟩ := hopen
    obtain ⟨f, gs, ⟨m, hm, -⟩, hrest, rfl⟩ := List.forall₂_cons_left_iff.1 hparts
    refine ⟨.range [m, .identifier "end"], ?_, alike_of_not_recognized rfl⟩
    change Spells _ _ (Form.headed ":" [f]).reread
    rw [reread_headed (by decide), List.map_singleton]
    exact .openRange hm
  · obtain ⟨pairs, hpairs, halike, hspells⟩ := exists_alikePairs hparts
    rw [assemblePlain_closedRange hopen]
    refine ⟨.range (pairs.map Prod.fst), ?_, alike_of_not_recognized rfl⟩
    rw [reread_headed (by decide), ← hpairs]
    refine .range hspells (length_alikePairs halike ▸ hlength) fun start heq => hopen ?_
    rw [heq] at halike
    obtain ⟨first, _, -, hrest, rfl⟩ := List.forall₂_cons_right_iff.1 halike
    obtain ⟨second, _, hsecond, hnil, rfl⟩ := List.forall₂_cons_right_iff.1 hrest
    rw [hsecond.identifier, List.forall₂_nil_right_iff.1 hnil]
    exact ⟨first, rfl⟩

lemma plainParts_quote {value : Node} (h : ∀ name, value ≠ .identifier name) :
    (Node.quote value).plainParts = [value] := by
  cases value with
  | identifier name => exact absurd rfl (h name)
  | _ => rfl

lemma assemblePlain_quote {value : Node} (h : ∀ name, value ≠ .identifier name) :
    (Node.quote value).assemblePlain top fs = .headed "quote" fs := by
  cases value with
  | identifier name => exact absurd rfl (h name)
  | _ => rfl

lemma reappears_quote {value : Node} (hsettles : (Node.quote value).SettlesPlain top)
    (hparts : List.Forall₂ (Reappears false) (Node.quote value).plainParts fs) :
    (Node.quote value).Reappears top ((Node.quote value).assemblePlain top fs) := by
  by_cases hname : ∃ name, value = .identifier name
  · obtain ⟨name, rfl⟩ := hname
    obtain ⟨htoken, hescape⟩ := hsettles
    have hform : keywordForm name = .atom (.keyword (unescapeSymbol name)) none := by
      rw [keywordForm]
      split
      next hnothing => rw [hnothing, unescapeSymbol_nothingName]
      next => rfl
    refine ⟨_, ?_, alike_refl _⟩
    change Spells _ _ (keywordForm name).reread
    rw [hform]
    exact .keyword hescape hform (lexemes?_eq_keyword_iff.2 htoken)
  · have hne : ∀ name, value ≠ .identifier name := fun name heq => hname ⟨name, heq⟩
    rw [plainParts_quote hne] at hparts
    obtain ⟨f, _, ⟨m, hm, halike⟩, hnil, rfl⟩ := List.forall₂_cons_left_iff.1 hparts
    obtain rfl := List.forall₂_nil_left_iff.1 hnil
    rw [assemblePlain_quote hne]
    refine ⟨.quote m, ?_, alike_of_not_recognized rfl⟩
    rw [reread_headed (by decide), List.map_singleton]
    refine .quote (fun name heq => ?_) hm
    subst heq
    exact hne name halike.identifier

/-- The symbol of the name of a macro is the symbol of a macro. -/
lemma unescapeSymbol_macro {name : Text} (hhead : name.head? = some '@') (hlength : 1 < name.length) :
    (unescapeSymbol name).head? = some '@' ∧ 1 < (unescapeSymbol name).length := by
  obtain ⟨c, rest, rfl⟩ := exists_macroName hhead hlength
  have hoperator : isOperator ('@' :: c :: rest) = false := rfl
  rcases unescapeSymbol_cases hoperator with ⟨htext, -⟩ | heq
  · have hne := List.length_pos_of_ne_nil (decodeHost_ne_nil (List.cons_ne_nil c rest))
    rw [htext, takeAt]
    refine ⟨rfl, ?_⟩
    rw [List.length_append]
    exact Nat.add_lt_add_left hne 1
  · rw [heq]
    exact ⟨rfl, hlength⟩

/-- A macro call of which the arguments are spelled again appears again. -/
lemma reappears_macroCall {name : Text} {args : List Node} (hsymbol : HasSymbol name)
    (hhead : name.head? = some '@') (hlength : 1 < name.length)
    (hargs : ∀ f ∈ fs, ∃ m, Spells .quoted m f.reread) :
    (Node.macroCall name args).Reappears top (.list (nameForm name :: fs)) := by
  obtain ⟨hhead', hlength'⟩ := unescapeSymbol_macro hhead hlength
  have hne : name ≠ nothingName := by
    rintro rfl
    cases hhead
  have hliteral : unescapeSymbol name ∉ literalNames := by
    have hnames : ∀ literal ∈ literalNames, literal.head? ≠ some '@' := by decide
    exact fun hmem => hnames _ hmem hhead'
  obtain ⟨pairs, hpairs, hspells⟩ := exists_formPairs (List.forall_mem_map.2 hargs)
  refine ⟨.macroCall name (pairs.map Prod.fst), ?_, alike_of_not_recognized rfl⟩
  rw [reread_list, List.map_cons, nameForm_of_ne hne, reread_symbol hliteral, ← hpairs]
  exact .macroCall hsymbol.2 (nameForm_of_ne hne) (readable_word ⟨hsymbol.1, hliteral⟩) hhead' hlength' hspells

/-! ## One step -/

lemma reappears_literal {value : Literal} (h : value.form.Readable) :
    (Node.literal value).Reappears top value.form :=
  ⟨_, by rw [reread_literal]; exact .literal h, alike_refl _⟩

lemma reappears_identifier {name : Text} (h : IsSingleName name) :
    (Node.identifier name).Reappears top (nameForm name) := by
  obtain ⟨m, hm, rfl | ⟨value, rfl, hnumber⟩⟩ := exists_nameSpelling h (.plain top)
  · exact ⟨_, hm, alike_refl _⟩
  · refine ⟨_, hm, nofun, fun number heq => ?_, nofun, nofun⟩
    exact absurd (Node.literal.inj heq) (hnumber _)

lemma plainParts_listing (kind : Listing) (parts : List Node) : (kind.node parts).plainParts = parts := by
  cases kind <;> rfl

lemma assemblePlain_listing (kind : Listing) {parts : List Node} (hne : parts ≠ [] ∨ kind.MayBeEmpty) :
    (kind.node parts).assemblePlain top fs = .headed kind.name fs := by
  cases kind with
  | tuple =>
    cases parts with
    | nil => exact absurd rfl (hne.resolve_right (by simp [Listing.MayBeEmpty]))
    | cons first rest => rfl
  | _ => rfl

lemma reappears_listing (kind : Listing) {parts : List Node} (hne : parts ≠ [] ∨ kind.MayBeEmpty)
    (hparts : List.Forall₂ (Reappears false) (kind.node parts).plainParts fs) :
    (kind.node parts).Reappears top ((kind.node parts).assemblePlain top fs) := by
  have hname : kind.name ∉ literalNames := by cases kind <;> decide
  rw [plainParts_listing] at hparts
  obtain ⟨pairs, hpairs, halike, hspells⟩ := exists_alikePairs hparts
  have hne' : pairs ≠ [] ∨ kind.MayBeEmpty := hne.imp_left (ne_nil_of_length_eq (length_alikePairs halike).symm)
  rw [assemblePlain_listing kind hne]
  refine ⟨kind.node (pairs.map Prod.fst), ?_, ?_⟩
  · rw [reread_headed hname, ← hpairs]
    exact .listing kind hspells hne'
  · cases kind <;> exact alike_of_not_recognized rfl

/-- A node in another node, apart from macro calls and modules, appears again if its parts do. -/
lemma reappears_assemble {n : Node} (hnormal : n.Normal (.plain false)) (hsettles : n.SettlesPlain top)
    (hmacroCall : ∀ name args, n ≠ .macroCall name args) (hmodule : ∀ name body, n ≠ .moduleBlock name body)
    (hsettled : ∀ m ∈ n.plainParts, m.Settled (.plain false))
    (hforms : List.Forall₂ (fun m f => m.toForm false = .ok f) n.plainParts fs)
    (hparts : List.Forall₂ (Reappears false) n.plainParts fs) : n.Reappears top (n.assemblePlain top fs) := by
  cases hnormal with
  | literal h => exact reappears_literal h
  | identifier => exact reappears_identifier hsettles
  | quote h => exact reappears_quote hsettles hparts
  | interpolate h =>
    obtain ⟨f, _, ⟨m, hm, -⟩, hnil, rfl⟩ := List.forall₂_cons_left_iff.1 hparts
    obtain rfl := List.forall₂_nil_left_iff.1 hnil
    refine ⟨.interpolate m, ?_, alike_of_not_recognized rfl⟩
    rw [assemblePlain, reread_headed (by decide), List.map_singleton]
    exact .interpolate hm
  | @call callee args hcallee hargs =>
    rw [assemblePlain]
    rw [plainParts] at hforms hparts
    cases hratio : ratio? callee args with
    | some ratio => 
      refine ⟨.literal (.number (.ratio ratio)), ?_, alike_of_not_recognized rfl⟩
      exact Spells.literal trivial
    | none =>
      rw [hratio] at hforms hparts
      exact reappears_call hsettles hratio hforms hparts
  | ifThen hcondition hthen =>
    obtain ⟨f, _, ⟨m, hm, -⟩, hrest, rfl⟩ := List.forall₂_cons_left_iff.1 hparts
    obtain ⟨g, _, ⟨k, hk, -⟩, hnil, rfl⟩ := List.forall₂_cons_left_iff.1 hrest
    obtain rfl := List.forall₂_nil_left_iff.1 hnil
    refine ⟨.ifThen m k, ?_, alike_of_not_recognized rfl⟩
    rw [assemblePlain, reread_headed (by decide)]
    exact .ifThen hm hk
  | ifElse hcondition hthen helse =>
    obtain ⟨f, _, ⟨m, hm, -⟩, hrest, rfl⟩ := List.forall₂_cons_left_iff.1 hparts
    obtain ⟨g, _, ⟨k, hk, -⟩, hlast, rfl⟩ := List.forall₂_cons_left_iff.1 hrest
    obtain ⟨e, _, ⟨l, hl, -⟩, hnil, rfl⟩ := List.forall₂_cons_left_iff.1 hlast
    obtain rfl := List.forall₂_nil_left_iff.1 hnil
    refine ⟨.ifElse m k l, ?_, alike_of_not_recognized rfl⟩
    rw [assemblePlain, reread_headed (by decide)]
    exact .ifElse hm hk hl
  | @block body hbody hlength =>
    obtain ⟨pairs, hpairs, halike, hspells⟩ := exists_alikePairs hparts
    have hassemble : (Node.block body).assemblePlain top fs = .headed "do" fs := by
      obtain ⟨first, second, rest, rfl⟩ := exists_cons_cons hlength
      rfl
    rw [hassemble]
    refine ⟨.block (pairs.map Prod.fst), ?_, alike_of_not_recognized rfl⟩
    rw [reread_headed (by decide), ← hpairs]
    exact .block hspells (length_alikePairs halike ▸ hlength)
  | letBlock _ _ => exact reappears_letBlock hparts
  | function hname hparams hbody => exact reappears_function hsettles hparts
  | lambda hparams hbody => exact reappears_lambda hparts
  | @listing kind parts hlisting hne => exact reappears_listing kind hne hparts
  | emptyTuple => exact ⟨_, .emptyTuple, alike_refl _⟩
  | subscript hcollection hindices =>
    obtain ⟨f, gs, ⟨m, hm, -⟩, hrest, rfl⟩ := List.forall₂_cons_left_iff.1 hparts
    obtain ⟨pairs, hpairs, -, hspells⟩ := exists_alikePairs hrest
    refine ⟨.subscript m (pairs.map Prod.fst), ?_, alike_of_not_recognized rfl⟩
    rw [assemblePlain, reread_headed (by decide), List.map_cons, ← hpairs]
    exact .subscript hm hspells
  | range hrange hlength => exact reappears_range hlength hparts
  | dotAccess hbase =>
    obtain ⟨f, _, hf, -, rfl⟩ := List.forall₂_cons_left_iff.1 hforms
    have hreappears := (List.forall₂_cons.1 hparts).1
    exact reappears_dotAccess hbase (hsettled _ List.mem_cons_self) hsettles hf hreappears
  | ascription hoperands hne => exact reappears_ascription hsettles hne hoperands hsettled hforms hparts
  | macroCall => exact absurd rfl (hmacroCall _ _)
  | moduleBlock => exact absurd rfl (hmodule _ _)
  | vector hitems =>
    obtain ⟨pairs, hpairs, -, hspells⟩ := exists_alikePairs hparts
    refine ⟨.vector (pairs.map Prod.fst), ?_, by simp [Node.isPath], by simp, fun items _ => ⟨_, rfl⟩, by simp⟩
    rw [assemblePlain, reread_vector, ← hpairs]
    exact .vector hspells

end

/-! ## All nodes -/

lemma head_of_normal {p : Place} {name : Text} {args : List Node} (h : (Node.macroCall name args).Normal p) :
    name.head? = some '@' ∧ 1 < name.length := by
  generalize hn : Node.macroCall name args = n at h
  induction h with
  | statement h ih => exact ih hn
  | argument h ih => exact ih hn
  | macroCall hhead hlength hargs =>
    cases hn
    exact ⟨hhead, hlength⟩
  | listing kind hparts hne => cases kind <;> cases hn
  | _ => cases hn

/-- Outside macro calls a settled node appears again where its text is read. -/
theorem reappears_of_settled {top : Bool} {n : Node} {f : Form} (hnormal : n.Normal (.plain top))
    (hsettled : n.Settled (.plain top)) (hf : n.toForm top = .ok f) : n.Reappears top f := by
  induction hsize : sizeOf n using Nat.strongRecOn generalizing top n f with
  | _ size ih =>
    subst hsize
    obtain ⟨hsettles, hsettled⟩ := hsettled
    obtain ⟨hfits, fs, hforms, rfl⟩ := formAt_eq_ok.1 (show n.formAt (.plain top) = .ok f from hf)
    obtain ⟨-, hvisits⟩ := normalAt_visits (p := .plain top) hnormal
    have hparts : ∀ v ∈ n.visits (.plain top), ∀ g, v.2.formAt v.1 = .ok g →
        ∀ inner, v.1 = .plain inner → v.2.Reappears inner g := by
      rintro ⟨p, m⟩ hv g hg inner rfl
      exact ih (sizeOf m) (sizeOf_visits hv) (hvisits _ hv) (hsettled _ hv) hg rfl
    have hreappears := ((List.forall₂_and_left _ _).2 ⟨hparts, hforms⟩).imp fun v g hv => hv.1 g hv.2
    have hstep (hmacroCall : ∀ name args, n ≠ .macroCall name args)
        (hmodule : ∀ name body, n ≠ .moduleBlock name body)
        (hassignment : ∀ target value, n ≠ .assignment target value) :
        n.Reappears top (n.assemblePlain top fs) := by
      rw [visits_plain hmacroCall hmodule top] at hsettled hforms hreappears
      exact reappears_assemble (hnormal.lower hassignment) hsettles hmacroCall hmodule
        (fun m hm => hsettled _ (List.mem_map_of_mem hm))
        (List.forall₂_map_left_iff.1 hforms)
        ((List.forall₂_map_left_iff.1 hreappears).imp fun m g h => h false rfl)
    cases n with
    | macroCall name args =>
      obtain ⟨hhead, hlength⟩ := head_of_normal hnormal
      refine reappears_macroCall hsettles hhead hlength fun g hg => ?_
      obtain ⟨v, hv, hvg⟩ := exists_of_mem_forall₂ hforms g hg
      obtain ⟨m, hm, rfl⟩ := List.mem_map.1 hv
      exact exists_quotedReading (hvisits _ hv) (hsettled _ hv) hvg
    | moduleBlock name body =>
      obtain ⟨g, gs, hname, hbody, rfl⟩ := List.forall₂_cons_left_iff.1 hreappears
      obtain ⟨m, hm, -⟩ := hname false rfl
      obtain ⟨pairs, hpairs, -, hspells⟩ := exists_alikePairs
        ((List.forall₂_map_left_iff.1 hbody).imp fun n g h => h true rfl)
      refine ⟨.moduleBlock m (pairs.map Prod.fst), ?_, alike_of_not_recognized rfl⟩
      rw [assemble, assemblePlain, reread_headed (by decide), List.map_cons, ← hpairs]
      exact .moduleBlock hm hspells
    | assignment target value =>
      obtain rfl : top = true := hfits
      obtain ⟨g, gs, htarget, hrest, rfl⟩ := List.forall₂_cons_left_iff.1 hreappears
      obtain ⟨g', gs', hvalue, hnil, rfl⟩ := List.forall₂_cons_left_iff.1 hrest
      obtain rfl := List.forall₂_nil_left_iff.1 hnil
      obtain ⟨m, hm, -⟩ := htarget false rfl
      obtain ⟨k, hk, -⟩ := hvalue false rfl
      refine ⟨.assignment m k, ?_, alike_of_not_recognized rfl⟩
      rw [assemble, assemblePlain, reread_headed (by decide)]
      exact .assignment hm hk
    | _ => exact hstep (by simp) (by simp) (by simp)

/-! ## Programs -/

/-- A form that is no node is a fault of its text. -/
lemma exists_fault_text {f : Form} (hreadable : f.Readable) (hnode : ∀ n, f.toNode true ≠ .ok n) :
    ∃ fault, program f.text = .error fault := by
  cases hprogram : program f.text with
  | error fault => exact ⟨fault, rfl⟩
  | ok nodes =>
    obtain ⟨read, hbare, hforms⟩ := forms_layout (List.forall_mem_singleton.2 hreadable) (le_refl (0 : Int))
    have htext : Form.layout [f] 0 = f.text := join_texts_singleton _ f
    rw [htext] at hforms
    rw [program, hforms] at hprogram
    cases read with
    | nil => cases hbare
    | cons g rest =>
      change (do return (← g.toNode true) :: (← (Feed.ofList rest).collect (Form.toNode true))) = _ at hprogram
      simp only [bind_eq_ok] at hprogram
      obtain ⟨n, hn, -⟩ := hprogram
      exact absurd (toNode_of_bare_eq (List.cons.inj hbare).1 hn) (hnode n)

lemma programText_of_forall₂ {top : Bool} {nodes : List Node} {fs : List Form}
    (h : List.Forall₂ (fun n f => n.toForm top = .ok f) nodes fs) (blankLines : Int) :
    programText top blankLines nodes = .ok (Form.layout fs blankLines) := by
  have hforms : nodes.mapM (Node.toForm top) = .ok fs := by
    induction h with
    | nil => rfl
    | cons hf hrest ih =>
      rw [List.mapM_cons, hf, ih]
      rfl
  rw [programText, hforms]
  rfl

lemma layout_reread (fs : List Form) (blankLines : Int) :
    Form.layout (fs.map Form.reread) blankLines = Form.layout fs blankLines := by
  rw [← rereadAll_eq_map, Form.layout, texts_rereadAll]
  rfl

/-- The canonical text of a source whose program is made of settled nodes is its own canonical text. -/
theorem canonicalText_settled {source : Text} {nodes : List Node} {blankLines : Int}
    (h : program source = .ok nodes)
    (hsettled : ∀ n ∈ nodes, n.Settled (.plain true)) (hlines : 0 ≤ blankLines) :
    ∃ t, canonicalText true blankLines source = .ok t ∧ canonicalText true blankLines t = .ok t := by
  have hnormal := normal_of_program h
  obtain ⟨fs, hfs⟩ : ∃ fs, List.Forall₂ (fun n f => n.toForm true = .ok f) nodes fs :=
    exists_forall₂_iff.2 fun n hn => exists_form (p := .plain true) (hnormal n hn)
  have hreappears : List.Forall₂ (Reappears true) nodes fs :=
    ((List.forall₂_and_left _ _).2 ⟨fun n hn => And.intro (hnormal n hn) (hsettled n hn), hfs⟩).imp
      fun n f hn => reappears_of_settled hn.1.1 hn.1.2 hn.2
  obtain ⟨pairs, hpairs, -, hspells⟩ := exists_alikePairs hreappears
  have hprogram := program_layout (fun q hq => (hspells q hq).converts.toNode_true)
    (fun q hq => (hspells q hq).converts.readable) hlines
  have hwritten : List.Forall₂ (fun n f => Node.toForm true n = .ok f)
      (pairs.map Prod.fst) (pairs.map Prod.snd) := by
    rw [List.forall₂_map_left_iff, List.forall₂_map_right_iff, List.forall₂_same]
    exact fun q hq => (hspells q hq).converts.toForm
  have htext := programText_of_forall₂ hwritten blankLines
  rw [hpairs, layout_reread] at hprogram htext
  refine ⟨Form.layout fs blankLines, ?_, ?_⟩
  · rw [canonicalText, h]
    exact programText_of_forall₂ hfs blankLines
  · rw [canonicalText, hprogram]
    exact htext

/-- A function of which the body passes on a name that stands for no value. -/
def sampleFunction : Node :=
  .function (.identifier "f") [.identifier "x"]
    (.block [.identifier "x", .call (.identifier "g") [.identifier "nothing"]])

lemma settled_sampleFunction : sampleFunction.Settled (.plain true) := by
  have hname : ∀ name ∈ (["f", "x", "g", "nothing"] : List Text),
      (Node.identifier name).Settled (.plain false) := by
    have hwords : ∀ name ∈ (["f", "x", "g", "nothing"] : List Text), '_' ∉ name ∧ isSymbolToken name = true ∧
        escapeSymbol name = name ∧ isSegment name = true := by decide
    intro name hmem
    obtain ⟨hmark, htoken, hescape, hsegment⟩ := hwords name hmem
    have hsymbol := unescapeSymbol_of_not_mem hmark
    have hsingle : IsSingleName name := ⟨⟨by rwa [hsymbol], by rwa [hsymbol]⟩, .inl (by rwa [hsymbol])⟩
    exact .mk hsingle fun v hv => absurd hv List.not_mem_nil
  have hcall : (Node.call (.identifier "g") [.identifier "nothing"]).Settled (.plain false) := by
    refine .mk ?_ (List.forall_mem_cons.2 ⟨hname _ (by simp), List.forall_mem_singleton.2 (hname _ (by simp))⟩)
    have hform : nameForm "g" = .symbol "g" := by
      rw [nameForm_of_ne (by decide), unescapeSymbol_of_not_mem (by decide)]
    rintro f ⟨⟩
    rw [hform, reread_symbol (by decide)]
    exact ⟨by decide, by decide⟩
  have hbody : (Node.block [.identifier "x", .call (.identifier "g") [.identifier "nothing"]]).Settled
      (.plain false) :=
    .mk trivial (List.forall_mem_cons.2 ⟨hname _ (by simp), List.forall_mem_singleton.2 hcall⟩)
  refine .mk (.inl rfl) (List.forall_mem_cons.2 ⟨hname _ (by simp), ?_⟩)
  exact List.forall_mem_cons.2 ⟨hname _ (by simp), List.forall_mem_singleton.2 hbody⟩

lemma program_sampleFunction : program "(defn f [x] x (g nothing))".toList = .ok [sampleFunction] := by
  have hsymbol : ∀ name ∈ (["f", "x", "g", "nothing"] : List Text), (Form.symbol name).Readable :=
    fun name hmem => readable_word (by revert name; decide)
  have hcall : (Form.list [.symbol "g", .symbol "nothing"]).Readable :=
    readable_list (by simpa using ⟨hsymbol "g" (by simp), hsymbol "nothing" (by simp)⟩)
  have hparams : (Form.vector [.symbol "x"]).Readable := readable_vector (by simpa using hsymbol "x" (by simp))
  have hreadable : (Form.headed "defn" [.symbol "f", .vector [.symbol "x"], .symbol "x",
      .list [.symbol "g", .symbol "nothing"]]).Readable :=
    readable_behind (by decide) (by simpa using ⟨hsymbol "f" (by simp), hparams, hsymbol "x" (by simp), hcall⟩)
  exact program_formText (n := sampleFunction) rfl hreadable

theorem canonicalText_settled_function :
    program "(defn f [x] x (g nothing))".toList = .ok [sampleFunction] ∧ sampleFunction.Settled (.plain true) ∧
      ∃ t, canonicalText true 0 "(defn f [x] x (g nothing))".toList = .ok t ∧ canonicalText true 0 t = .ok t :=
  ⟨program_sampleFunction, settled_sampleFunction, canonicalText_settled program_sampleFunction
    (List.forall_mem_singleton.2 settled_sampleFunction) le_rfl⟩

/-- A quotation that leads a call is written as a keyword, which leads no call. -/
theorem canonicalText_quotedHead :
    program "((quote a))".toList = .ok [.call (.quote (.identifier "a")) []] ∧
      canonicalText true 0 "((quote a))".toList = .ok "(:a)".toList ∧
      ∃ fault, program "(:a)".toList = .error fault := by
  have hsymbol : (Form.symbol "a").Readable := readable_word (by decide)
  have hquote : (Form.headed "quote" [.symbol "a"]).Readable :=
    readable_behind (by decide) (List.forall_mem_singleton.2 hsymbol)
  have hprogram : program "((quote a))".toList = .ok [.call (.quote (.identifier "a")) []] :=
    program_formText (f := .list [.headed "quote" [.symbol "a"]]) rfl
      (readable_list (List.forall_mem_singleton.2 hquote))
  have hkeyword : (Form.atom (.keyword "a") none).Readable := lexemes?_eq_keyword_iff.2 (by decide)
  refine ⟨hprogram, ?_, ?_⟩
  · have hform : (Node.call (.quote (.identifier "a")) []).toForm true =
        .ok (.list [.atom (.keyword "a") none]) := by
      change Except.ok (Form.list [keywordForm "a"]) = _
      rw [keywordForm, if_neg (by decide), unescapeSymbol_of_not_mem (by decide)]
    rw [canonicalText, hprogram]
    exact programText_of_forall₂ (.cons hform .nil) 0
  · exact exists_fault_text (f := .list [.atom (.keyword "a") none])
      (readable_list (List.forall_mem_singleton.2 hkeyword)) fun n hn => by cases hn

end Bilisp
