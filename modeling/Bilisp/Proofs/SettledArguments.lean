import Bilisp.Proofs.SettledNodes

/-!
# Arguments of macros that settle

In a macro call the text of a settled node is read as something that is written as the same text again. What is
read may be another node, a literal in place of a name or an unevaluated list in place of a call, but it is
spelled by the form that was written.
-/

namespace Bilisp

/-! ## Names in forms -/

section

variable {name : Text}

lemma IsSingleName.pair (h : IsSingleName name) (hsegment : isSegment (unescapeSymbol name) = true) :
    NamePair name (unescapeSymbol name) := ⟨hsegment, h.1.2, rfl⟩

/-- The symbol of a name that is not the name of a literal spells the name. -/
lemma spells_singleName {p : Place} (h : IsSingleName name) (hnothing : name ≠ Node.nothingName)
    (hliteral : unescapeSymbol name ∉ literalNames) :
    Spells p (.identifier name) (.symbol (unescapeSymbol name)) := by
  have hreadable := readable_word ⟨h.1.1, hliteral⟩
  rcases h.2 with hsegment | hop
  · have hpair := h.pair hsegment
    cases p with
    | plain top => exact .path (.name hpair hnothing) hreadable
    | quoted => exact .quotedName hpair hnothing hreadable
  · have htoken := h.1.1
    rw [unescapeSymbol_operator hop] at htoken ⊢
    exact .operator hop htoken

lemma spells_nil (p : Place) : Spells p (.literal .nothing) .nil := .literal trivial

/-- The form of a name is read as the name or as a literal that is no number. -/
lemma exists_nameSpelling (h : IsSingleName name) (p : Place) : ∃ m, Spells p m (nameForm name).reread ∧
    (m = .identifier name ∨ ∃ value : Literal, m = .literal value ∧ ∀ number, value ≠ .number number) := by
  by_cases hnothing : name = Node.nothingName
  · rw [nameForm, if_pos hnothing]
    exact ⟨_, spells_nil p, .inr ⟨.nothing, rfl, by simp⟩⟩
  · rw [nameForm_of_ne hnothing]
    by_cases hliteral : unescapeSymbol name ∈ literalNames
    · obtain ⟨value, hreadable, hnumber, hform⟩ := exists_literal_of_mem hliteral
      rw [hform]
      exact ⟨_, .literal hreadable, .inr ⟨value, rfl, hnumber⟩⟩
    · rw [reread_symbol hliteral]
      exact ⟨_, spells_singleName h hnothing hliteral, .inl rfl⟩

end

/-! ## Unevaluated lists -/

/-- The words that lead unevaluated lists in macro calls. -/
def quotedWords : List Text :=
  ["$", "call", "comparison", "if", "block", "let", "function", "->", "=", "import", "using", "export", "ref",
    ":", ".", "::", "curly", "macrocall", "module", "&&", "||"]

lemma isHeadName_quotedWord {word : Text} (h : word ∈ quotedWords) :
    IsHeadName word ∧ nameForm word = .symbol word := by
  have hwords : ∀ word ∈ quotedWords, '_' ∉ word ∧ isSymbolToken word = true ∧ escapeSymbol word = word ∧
      word ∉ literalNames ∧ word ≠ Node.nothingName ∧ word ≠ "quote".toList := by
    decide
  obtain ⟨hmark, htoken, hescape, hliteral, hnothing, hquote⟩ := hwords word h
  have hsymbol := unescapeSymbol_of_not_mem hmark
  refine ⟨⟨⟨?_, ?_⟩, ?_, hnothing, hquote⟩, ?_⟩
  · rw [hsymbol, htoken]
  · rw [hsymbol, hescape]
  · rwa [hsymbol]
  · rw [nameForm_of_ne hnothing, hsymbol]

lemma exists_formPairs {p : Place} {forms : List Form} (h : ∀ f ∈ forms, ∃ m, Spells p m f) :
    ∃ pairs : List (Node × Form), pairs.map Prod.snd = forms ∧ ∀ q ∈ pairs, Spells p q.1 q.2 := by
  induction forms with
  | nil => exact ⟨[], rfl, fun q hq => absurd hq List.not_mem_nil⟩
  | cons f rest ih =>
    obtain ⟨m, hm⟩ := h f List.mem_cons_self
    obtain ⟨pairs, hpairs, hspells⟩ := ih fun g hg => h g (List.mem_cons_of_mem _ hg)
    refine ⟨(m, f) :: pairs, by rw [List.map_cons, hpairs], ?_⟩
    rintro q (_ | ⟨_, hq⟩)
    · exact hm
    · exact hspells q hq

/-- A list behind the symbol of a name is read in a macro call as an unevaluated list or a tuple. -/
lemma exists_rawSpelling {head : Text} (hhead : IsHeadName head) {forms : List Form}
    (h : ∀ f ∈ forms, ∃ m, Spells .quoted m f) : ∃ m, Spells .quoted m (.list (nameForm head :: forms)) := by
  obtain ⟨hsymbol, hliteral, hnothing, hquote⟩ := hhead
  obtain ⟨pairs, rfl, hpairs⟩ := exists_formPairs h
  have hform := nameForm_of_ne hnothing
  have hescape := hsymbol.2
  rw [hform]
  by_cases htuple : unescapeSymbol head = "tuple".toList
  · rw [htuple]
    exact ⟨_, .quotedTuple hpairs⟩
  · refine ⟨_, .raw hescape hform (readable_word ⟨hsymbol.1, hliteral⟩) (fun heq => hquote ?_) htuple hpairs⟩
    rw [← hescape, heq]
    decide

/-- A quotable form is read in a macro call as something that is written as the form. -/
lemma exists_quotableSpelling {f : Form} (h : f.Quotable) : ∃ m, Spells .quoted m f := by
  induction h with
  | literal hreadable => exact ⟨_, .literal hreadable⟩
  | @name name hname hliteral =>
    by_cases hnothing : name = Node.nothingName
    · rw [nameForm, if_pos hnothing]
      exact ⟨_, spells_nil .quoted⟩
    · rw [nameForm_of_ne hnothing]
      exact ⟨_, spells_singleName hname hnothing hliteral⟩
  | vector h ih =>
    obtain ⟨pairs, rfl, hpairs⟩ := exists_formPairs ih
    exact ⟨_, .vector hpairs⟩
  | map h heven ih =>
    obtain ⟨pairs, rfl, hpairs⟩ := exists_formPairs ih
    exact ⟨_, .dictionary hpairs (by simpa using heven)⟩
  | set h ih =>
    obtain ⟨pairs, rfl, hpairs⟩ := exists_formPairs ih
    exact ⟨_, .setOf hpairs⟩
  | list hhead h ih => exact exists_rawSpelling hhead ih

/-! ## Collections -/

section

variable {p : Place} {forms : List Form} (hforms : ∀ f ∈ forms, ∃ m, Spells p.inner m f.reread)

include hforms

lemma exists_vectorSpelling : ∃ items, Spells p (.vector items) (Form.vector forms).reread := by
  obtain ⟨pairs, hpairs, hspells⟩ := exists_formPairs (List.forall_mem_map.2 hforms)
  rw [reread_vector, ← hpairs]
  exact ⟨_, .vector hspells⟩

lemma exists_dictionarySpelling (heven : forms.length % 2 = 0) :
    ∃ nodes, nodes.length = forms.length ∧
      Spells p (.dictionary nodes) (Form.compound .map forms none).reread := by
  obtain ⟨pairs, hpairs, hspells⟩ := exists_formPairs (List.forall_mem_map.2 hforms)
  have hlength : pairs.length = forms.length := by simpa using congrArg List.length hpairs
  rw [Form.reread, rereadAll_eq_map, ← hpairs]
  exact ⟨_, by rw [List.length_map, hlength], .dictionary hspells (hlength ▸ heven)⟩

lemma exists_setSpelling : ∃ items, Spells p (.setOf items) (Form.compound .set forms none).reread := by
  obtain ⟨pairs, hpairs, hspells⟩ := exists_formPairs (List.forall_mem_map.2 hforms)
  rw [Form.reread, rereadAll_eq_map, ← hpairs]
  exact ⟨_, .setOf hspells⟩

end

/-! ## One step in a macro call -/

/-- What holds of the forms in macro calls that have no name of a node in them if it holds of their parts. -/
structure Form.HoldsInMacros (P : Form → Prop) : Prop where
  nil : P .nil
  vector : ∀ {forms : List Form}, (∀ f ∈ forms, P f) → P (.vector forms)
  map : ∀ {forms : List Form}, (∀ f ∈ forms, P f) → forms.length % 2 = 0 → P (.compound .map forms none)
  set : ∀ {forms : List Form}, (∀ f ∈ forms, P f) → P (.compound .set forms none)
  tuple : ∀ {forms : List Form}, (∀ f ∈ forms, P f) → P (.headed "tuple" forms)
  word : ∀ {word : Text} {forms : List Form}, word ∈ quotedWords → (∀ f ∈ forms, P f) → P (.headed word forms)

/-- The name that a node has in a macro call, apart from the head of an unevaluated list. -/
def Node.quotedName? : Node → Option Text
  | .identifier name => some name
  | .dotAccess _ field => some field
  | .macroCall name _ => some name
  | _ => none

section

variable {P : Form → Prop} (hP : Form.HoldsInMacros P)

include hP

lemma holds_quotedCallForm {forms : List Form} (hforms : ∀ f ∈ forms, P f) {callee : Node} {args : List Node}
    (hlength : forms.length = (Node.callParts callee args).length) :
    P (Node.callForm callee args (.headed "call") forms) := by
  cases callKind callee args with
  | @dictionary nodes heven =>
    rw [callParts_dictionary heven] at hlength
    rw [callForm_dictionary]
    exact hP.map hforms (hlength ▸ heven)
  | @setOf items =>
    rw [callForm_setOf]
    exact hP.set hforms
  | proper hshape =>
    rw [callForm_proper _ _ hshape]
    exact hP.word (by decide) hforms

/-- What holds of the forms in macro calls if it holds of their parts holds of the form of a node in a macro call,
apart from a quotation, if it holds of the names and literals in the node and of the forms of its parts. -/
lemma holds_assembleQuoted {n : Node} {forms : List Form} (hquote : ∀ value, n ≠ .quote value)
    (hliteral : ∀ value, n = .literal value → P value.form)
    (hname : ∀ name, n.quotedName? = some name → P (nameForm name))
    (hraw : ∀ head args, n = .raw head args → P (.list (nameForm head :: forms)))
    (hforms : ∀ f ∈ forms, P f) (hlength : forms.length = (n.visits .quoted).length) :
    P (n.assembleQuoted forms) := by
  have hfirst := forall_headD hP.nil hforms
  have hlast := forall_getLastD hP.nil hforms
  have hinit : ∀ f ∈ forms.dropLast, P f := fun f hf => hforms f (List.dropLast_subset forms hf)
  cases n with
  | literal value => exact hliteral value rfl
  | identifier name => exact hname name rfl
  | quote value => exact absurd rfl (hquote value)
  | vector items => exact hP.vector hforms
  | tuple items => exact hP.tuple hforms
  | call callee args => exact holds_quotedCallForm hP hforms (hlength.trans (List.length_map _))
  | function name params body =>
    replace hlength := hlength.trans ((List.length_map _).trans List.length_append)
    have hinitlength : forms.dropLast.length = (Node.callParts name params).length := by
      rw [List.length_dropLast, hlength]
      rfl
    have hsignature := holds_quotedCallForm hP hinit hinitlength
    exact hP.word (by decide) (List.forall_mem_cons.2 ⟨hsignature, List.forall_mem_singleton.2 hlast⟩)
  | anonymous params body | lambda params body =>
    exact hP.word (by decide) (List.forall_mem_cons.2 ⟨hP.tuple hinit, List.forall_mem_singleton.2 hlast⟩)
  | dotAccess base field =>
    exact hP.word (by decide) (List.forall_mem_append.2 ⟨hforms, List.forall_mem_singleton.2 (hname field rfl)⟩)
  | macroCall name args => exact hP.word (by decide) (List.forall_mem_cons.2 ⟨hname name rfl, hforms⟩)
  | moduleBlock name body =>
    have hblock : P (Form.headed "block" forms.tail) :=
      hP.word (by decide) fun f hf => hforms f (List.mem_of_mem_tail hf)
    exact hP.word (by decide) (List.forall_mem_cons.2 ⟨hfirst, List.forall_mem_singleton.2 hblock⟩)
  | raw head args => exact hraw head args rfl
  | _ => exact hP.word (by rw [Node.head?, Option.getD_some]; decide) hforms

end

section

variable {forms : List Form} (hforms : ∀ f ∈ forms, ∃ m, Spells .quoted m f.reread)

include hforms

lemma exists_headSpelling {head : Text} (hhead : IsHeadName head) :
    ∃ m, Spells .quoted m (Form.list (nameForm head :: forms)).reread := by
  rw [reread_list, List.map_cons, nameForm_of_ne hhead.2.2.1, reread_symbol hhead.2.1,
    ← nameForm_of_ne hhead.2.2.1]
  exact exists_rawSpelling hhead (List.forall_mem_map.2 hforms)

lemma exists_wordSpelling {word : Text} (hword : word ∈ quotedWords) :
    ∃ m, Spells .quoted m (Form.headed word forms).reread := by
  obtain ⟨hhead, hform⟩ := isHeadName_quotedWord hword
  rw [Form.headed, ← hform]
  exact exists_headSpelling hforms hhead

lemma exists_tupleSpelling : ∃ m, Spells .quoted m (Form.headed "tuple" forms).reread := by
  obtain ⟨pairs, hpairs, hspells⟩ := exists_formPairs (List.forall_mem_map.2 hforms)
  rw [reread_headed (by decide), ← hpairs]
  exact ⟨_, .quotedTuple hspells⟩

end

lemma holds_spelling : Form.HoldsInMacros fun f => ∃ m, Spells .quoted m f.reread where
  nil := ⟨_, spells_nil .quoted⟩
  vector hforms := (exists_vectorSpelling (p := .quoted) hforms).imp' _ fun _ => id
  map hforms heven := by
    obtain ⟨nodes, -, hspells⟩ := exists_dictionarySpelling (p := .quoted) hforms heven
    exact ⟨_, hspells⟩
  set hforms := (exists_setSpelling (p := .quoted) hforms).imp' _ fun _ => id
  tuple := exists_tupleSpelling
  word hword hforms := exists_wordSpelling hforms hword

/-- The form of a node in a macro call, apart from a quotation, is read as something that is written as the form
if the forms of its parts are. -/
lemma exists_assembledSpelling {n : Node} {forms : List Form} (hsettles : n.SettlesQuoted)
    (hliteral : ∀ value, n = .literal value → value.form.Readable) (hquote : ∀ value, n ≠ .quote value)
    (hforms : ∀ f ∈ forms, ∃ m, Spells .quoted m f.reread)
    (hlength : forms.length = (n.visits .quoted).length) :
    ∃ m, Spells .quoted m (n.assembleQuoted forms).reread := by
  refine holds_assembleQuoted holds_spelling hquote (fun value hn => ?_) (fun name hn => ?_) (fun head args hn => ?_)
    hforms hlength
  · rw [reread_literal]
    exact ⟨_, .literal (hliteral value hn)⟩
  · have hname : IsSingleName name := by
      cases n with
      | identifier | dotAccess | macroCall =>
        cases hn
        exact hsettles
      | _ => cases hn
    obtain ⟨m, hm, -⟩ := exists_nameSpelling hname .quoted
    exact ⟨m, hm⟩
  · subst hn
    exact exists_headSpelling hforms hsettles

lemma visits_quoted {n : Node} (hquote : ∀ value, n ≠ .quote value) :
    n.visits .quoted = n.quotedParts.map (Prod.mk .quoted) := by
  cases n with
  | quote value => exact absurd rfl (hquote value)
  | _ => rfl

lemma readable_of_normal {p : Place} {value : Literal} (h : (Node.literal value).Normal p) :
    value.form.Readable := by
  generalize hn : Node.literal value = n at h
  induction h with
  | statement h ih => exact ih hn
  | argument h ih => exact ih hn
  | literal h =>
    cases hn
    exact h
  | listing kind hparts hne => cases kind <;> cases hn
  | _ => cases hn

/-- In a macro call the form of a settled node is read as something that is written as the form again. -/
theorem exists_quotedReading {n : Node} {f : Form} (hnormal : n.NormalAt .quoted) (hsettled : n.Settled .quoted)
    (hf : n.toQuotedForm = .ok f) : ∃ m, Spells .quoted m f.reread := by
  induction hsize : sizeOf n using Nat.strongRecOn generalizing n f with
  | _ size ih =>
    subst hsize
    obtain ⟨hsettles, hsettled⟩ := hsettled
    by_cases hquote : ∃ value, n = .quote value
    · obtain ⟨value, rfl⟩ := hquote
      rw [Node.toQuotedForm] at hf
      exact exists_quotableSpelling (hsettles f hf)
    · obtain ⟨-, forms, hforms, rfl⟩ := formAt_eq_ok.1 (show n.formAt .quoted = .ok f from hf)
      obtain ⟨-, hvisits⟩ := normalAt_visits hnormal
      obtain ⟨q, hq⟩ := hnormal
      have hne : ∀ value, n ≠ .quote value := fun value heq => hquote ⟨value, heq⟩
      refine exists_assembledSpelling hsettles (fun value heq => ?_) hne (fun g hg => ?_) hforms.length_eq.symm
      · subst heq
        exact readable_of_normal hq
      · obtain ⟨v, hv, hvg⟩ := exists_of_mem_forall₂ hforms g hg
        have hnormal := hvisits v hv
        have hsize := sizeOf_visits hv
        have hvsettled := hsettled v hv
        rw [visits_quoted hne] at hv
        obtain ⟨m, -, rfl⟩ := List.mem_map.1 hv
        exact ih (sizeOf m) hsize hnormal hvsettled hvg rfl

end Bilisp
