import Bilisp.Proofs.Readings

/-!
# The nodes that forms give

Not every node is the node of a form: blocks have at least two statements, bindings are assignments, ranges have
two or three parts, and assignments stand in programs and modules only. Nodes of this shape are normal
(`Node.Normal`), and every form is read as a normal node (`Reads.normal`).
-/

namespace Bilisp

/-- The nodes that forms are converted to. Inside a macro call some nodes stand that stand nowhere else. -/
inductive Node.Normal : Place → Node → Prop
  | statement {n : Node} (h : Normal (.plain false) n) : Normal (.plain true) n
  | argument {n : Node} (h : Normal (.plain false) n) : Normal .quoted n
  | literal {value : Literal} (h : value.form.Readable) : Normal (.plain false) (.literal value)
  | identifier {name : Text} : Normal (.plain false) (.identifier name)
  | quote {value : Node} (h : Normal (.plain false) value) : Normal (.plain false) (.quote value)
  | interpolate {value : Node} (h : Normal (.plain false) value) : Normal (.plain false) (.interpolate value)
  | call {callee : Node} {args : List Node} (hcallee : Normal (.plain false) callee)
    (hargs : ∀ n ∈ args, Normal (.plain false) n) : Normal (.plain false) (.call callee args)
  | ifThen {condition thenBranch : Node} (hcondition : Normal (.plain false) condition)
    (hthen : Normal (.plain false) thenBranch) : Normal (.plain false) (.ifThen condition thenBranch)
  | ifElse {condition thenBranch elseBranch : Node} (hcondition : Normal (.plain false) condition)
    (hthen : Normal (.plain false) thenBranch) (helse : Normal (.plain false) elseBranch) :
    Normal (.plain false) (.ifElse condition thenBranch elseBranch)
  | block {body : List Node} (hbody : ∀ n ∈ body, Normal (.plain false) n) (hlength : 2 ≤ body.length) :
    Normal (.plain false) (.block body)
  | letBlock {parts : List Node} {body : Node} (hparts : ∀ n ∈ parts, Normal (.plain false) n)
    (hbody : Normal (.plain false) body) : Normal (.plain false) (.letBlock (assignments parts) body)
  | function {name body : Node} {params : List Node} (hname : Normal (.plain false) name)
    (hparams : ∀ n ∈ params, Normal (.plain false) n) (hbody : Normal (.plain false) body) :
    Normal (.plain false) (.function name params body)
  | lambda {params : List Node} {body : Node} (hparams : ∀ n ∈ params, Normal (.plain false) n)
    (hbody : Normal (.plain false) body) : Normal (.plain false) (.lambda params body)
  | assignment {target value : Node} (htarget : Normal (.plain false) target)
    (hvalue : Normal (.plain false) value) : Normal (.plain true) (.assignment target value)
  | listing (kind : Listing) {parts : List Node} (hparts : ∀ n ∈ parts, Normal (.plain false) n)
    (hne : parts ≠ [] ∨ kind.MayBeEmpty) : Normal (.plain false) (kind.node parts)
  | emptyTuple : Normal (.plain false) (.tuple [])
  | subscript {collection : Node} {indices : List Node} (hcollection : Normal (.plain false) collection)
    (hindices : ∀ n ∈ indices, Normal (.plain false) n) : Normal (.plain false) (.subscript collection indices)
  | range {parts : List Node} (hparts : ∀ n ∈ parts, Normal (.plain false) n)
    (hlength : parts.length = 2 ∨ parts.length = 3) : Normal (.plain false) (.range parts)
  | dotAccess {base : Node} {field : Text} (hbase : Normal (.plain false) base) :
    Normal (.plain false) (.dotAccess base field)
  | ascription {operands : List Node} (hoperands : ∀ n ∈ operands, Normal (.plain false) n)
    (hne : operands ≠ []) : Normal (.plain false) (.ascription operands)
  | macroCall {name : Text} {args : List Node} (hhead : name.head? = some '@') (hlength : 1 < name.length)
    (hargs : ∀ n ∈ args, Normal .quoted n) : Normal (.plain false) (.macroCall name args)
  | moduleBlock {name : Node} {body : List Node} (hname : Normal (.plain false) name)
    (hbody : ∀ n ∈ body, Normal (.plain true) n) : Normal (.plain false) (.moduleBlock name body)
  | vector {items : List Node} (hitems : ∀ n ∈ items, Normal (.plain false) n) :
    Normal (.plain false) (.vector items)
  | quotedVector {items : List Node} (hitems : ∀ n ∈ items, Normal .quoted n) : Normal .quoted (.vector items)
  | quotedDictionary {nodes : List Node} (hnodes : ∀ n ∈ nodes, Normal .quoted n) :
    Normal .quoted (.dictionary nodes)
  | quotedSet {items : List Node} (hitems : ∀ n ∈ items, Normal .quoted n) : Normal .quoted (.setOf items)
  | quotedTuple {items : List Node} (hitems : ∀ n ∈ items, Normal .quoted n) : Normal .quoted (.tuple items)
  | raw {head : Text} {args : List Node} (hhead : head ≠ "quote".toList) (hargs : ∀ n ∈ args, Normal .quoted n) :
    Normal .quoted (.raw head args)

/-- What is normal inside another node is normal at top level. -/
lemma Node.Normal.lift {n : Node} (h : n.Normal (.plain false)) (top : Bool) : n.Normal (.plain top) := by
  cases top with
  | true => exact .statement h
  | false => exact h

/-- Only an assignment is normal as a statement without being normal as a part. -/
lemma Node.Normal.lower {n : Node} {top : Bool} (h : n.Normal (.plain top))
    (hassignment : ∀ target value, n ≠ .assignment target value) : n.Normal (.plain false) := by
  cases top with
  | false => exact h
  | true =>
    cases h with
    | statement h => exact h
    | assignment => exact absurd rfl (hassignment _ _)

/-! ## Names -/

/-- The name of a macro is the mark of macros and at least one more character. -/
lemma exists_macroName {name : Text} (hhead : name.head? = some '@') (hlength : 1 < name.length) :
    ∃ c rest, name = '@' :: c :: rest := by
  match name with
  | [] => cases hhead
  | [c] => simp at hlength
  | mark :: c :: rest =>
    obtain rfl : mark = '@' := by simpa using hhead
    exact ⟨c, rest, rfl⟩

/-- The host name of a macro's symbol is the name of a macro. -/
lemma escapeSymbol_macro {name : Text} (hhead : name.head? = some '@') (hlength : 1 < name.length) :
    (escapeSymbol name).head? = some '@' ∧ 1 < (escapeSymbol name).length := by
  obtain ⟨c, rest, rfl⟩ := exists_macroName hhead hlength
  have hop : isOperator ('@' :: c :: rest) = false := rfl
  rw [escapeSymbol, hop, if_neg Bool.false_ne_true, takeAt]
  dsimp only
  rw [List.flatMap_cons, List.singleton_append]
  have hpositive := List.length_pos_of_ne_nil (hostChar_ne_nil c)
  refine ⟨rfl, ?_⟩
  rw [List.length_cons, List.length_append]
  omega

/-- No other symbol has the host name of the symbol of quotations. -/
lemma escapeSymbol_ne_quote {name : Text} (h : name ≠ "quote".toList) : escapeSymbol name ≠ "quote".toList := by
  intro heq
  have hmark : '_' ∉ escapeSymbol name := heq ▸ by decide
  rw [escapeSymbol_of_not_mem hmark] at heq
  exact h heq

/-! ## Atoms -/

lemma normal_of_isPath {n : Node} (h : n.isPath = true) : n.Normal (.plain false) := by
  match n with
  | .identifier name => exact .identifier
  | .dotAccess base field => exact .dotAccess (normal_of_isPath (n := base) h)

lemma ascribedParts_ne_nil {s : Text} (h : hasAscription s = true) : ascribedParts s ≠ [] := by
  have hlength := two_le_length_splitAscription h
  rw [ascribedParts]
  split
  next parts hsplit =>
    rw [hsplit] at hlength
    rintro rfl
    simp at hlength
  next =>
    intro hnil
    rw [hnil] at hlength
    simp at hlength

lemma forall₂_pathNode? {parts : List Text} {nodes : List Node} (h : parts.mapM pathNode? = some nodes) :
    List.Forall₂ (fun part n => pathNode? part = some n) parts nodes := by
  induction parts generalizing nodes with
  | nil =>
    cases h
    exact .nil
  | cons part rest ih =>
    rw [List.mapM_cons] at h
    obtain ⟨n, hn, others, hothers, rfl⟩ : ∃ n, pathNode? part = some n ∧
        ∃ others, rest.mapM pathNode? = some others ∧ n :: others = nodes := by
      simpa [Option.bind_eq_some_iff] using h
    exact .cons hn (ih hothers)

lemma isPath_of_mapM {parts : List Text} {nodes : List Node} (h : parts.mapM pathNode? = some nodes) :
    nodes.length = parts.length ∧ ∀ n ∈ nodes, n.isPath = true := by
  have hnodes := forall₂_pathNode? h
  refine ⟨hnodes.length_eq.symm, fun n hn => ?_⟩
  obtain ⟨part, -, hpart⟩ := exists_of_mem_forall₂ hnodes n hn
  exact isPath_of_pathNode? hpart

lemma normal_of_symbolNode? {s : Text} {n : Node} (h : symbolNode? s = some n) : n.Normal (.plain false) := by
  rw [symbolNode?] at h
  split at h
  · rw [← Option.some.inj h]
    exact .identifier
  · split at h
    next hmark =>
      obtain ⟨operands, hoperands, rfl⟩ := Option.map_eq_some_iff.1 h
      obtain ⟨hlength, hpaths⟩ := isPath_of_mapM hoperands
      exact .ascription (fun n hn => normal_of_isPath (hpaths n hn))
        (ne_nil_of_length_eq hlength (ascribedParts_ne_nil hmark))
    · exact normal_of_isPath (isPath_of_pathNode? h)

lemma normal_of_atomNode {value : Atom} {span : Option Span} {n : Node} (h : atomNode value span = .ok n)
    (hreadable : value.Readable) : n.Normal (.plain false) := by
  cases value with
  | symbol name =>
    rw [atomNode] at h
    split at h
    next node hnode =>
      rw [← Except.ok.inj h]
      exact normal_of_symbolNode? hnode
    next => cases h
  | character text =>
    obtain ⟨c, rfl⟩ := List.length_eq_one_iff.1 hreadable
    rw [← Except.ok.inj h]
    exact .literal rfl
  | keyword name =>
    rw [← Except.ok.inj h]
    exact .quote .identifier
  | number value =>
    rw [← Except.ok.inj h]
    exact .literal hreadable
  | _ =>
    rw [← Except.ok.inj h]
    exact .literal trivial

/-! ## Parts -/

section

variable {p : Place} {pairs : List (Node × Form)}

lemma normal_entries {nodes : List Node} (h : ∀ n ∈ nodes, n.Normal (.plain false)) :
    ∀ n ∈ Node.entries nodes, n.Normal (.plain false) := by
  fun_induction Node.entries nodes with
  | case1 key value rest ih =>
    rintro n (_ | ⟨_, hn⟩)
    · exact .call .identifier (by simpa using ⟨h key (by simp), h value (by simp)⟩)
    · exact ih (fun m hm => h m (by simp [hm])) n hn
  | case2 => exact fun n hn => absurd hn List.not_mem_nil

lemma normal_sequence {nodes : List Node} (h : ∀ n ∈ nodes, n.Normal (.plain false)) :
    (Node.sequence nodes).Normal (.plain false) := by
  match nodes with
  | [] => exact .literal trivial
  | [n] => exact h n List.mem_cons_self
  | _ :: _ :: _ => exact .block h (by simp)

lemma normal_foldl {n : Node} (h : n.Normal (.plain false)) (segments : List Text) :
    (segments.foldl (fun node segment => .dotAccess node (escapeSymbol segment)) n).Normal (.plain false) := by
  induction segments generalizing n with
  | nil => exact h
  | cons segment rest ih => exact ih (.dotAccess h)

lemma normal_rangeOf {nodes : List Node} (h : ∀ n ∈ nodes, n.Normal (.plain false)) (hne : nodes ≠ [])
    (hlength : nodes.length ≤ 3) : (rangeOf nodes).Normal (.plain false) := by
  match nodes with
  | [] => exact absurd rfl hne
  | [n] => exact .range (by simpa using ⟨h n List.mem_cons_self, .identifier⟩) (.inl rfl)
  | [_, _] => exact .range h (.inl rfl)
  | [_, _, _] => exact .range h (.inr rfl)

end

/-- A readable form is read as a normal node. -/
theorem Reads.normal {p : Place} {n : Node} {f : Form} (h : Reads p n f) (hf : f.Readable) : n.Normal p := by
  have hmap : ∀ {p : Place} {pairs : List (Node × Form)}, (∀ q ∈ pairs, q.2.Readable → q.1.Normal p) →
      Form.AllReadable (pairs.map Prod.snd) → ∀ n ∈ pairs.map Prod.fst, n.Normal p := by
    intro p pairs h hreadable
    rw [Form.allReadable_iff, List.forall_mem_map] at hreadable
    exact List.forall_mem_map.2 fun q hq => h q hq (hreadable q hq)
  induction h with
  | @atom p _ _ hnode hkeyword =>
    have hn := normal_of_atomNode hnode hf
    cases p with
    | plain top => exact hn.lift top
    | quoted => exact .argument hn
  | quotedKeyword => exact .argument .identifier
  | @vector p _ hitems ih =>
    cases p with
    | plain top => exact (Node.Normal.vector (hmap ih hf.2)).lift top
    | quoted => exact .quotedVector (hmap ih hf.2)
  | @dictionary p _ hentries heven ih =>
    cases p with
    | plain top => exact (Node.Normal.call .identifier (normal_entries (hmap ih hf.2))).lift top
    | quoted => exact .quotedDictionary (hmap ih hf.2)
  | @setOf p _ hitems ih =>
    cases p with
    | plain top =>
      refine (Node.Normal.call .identifier ?_).lift top
      exact fun n hn => List.mem_singleton.1 hn ▸ .vector (hmap ih hf.2)
    | quoted => exact .quotedSet (hmap ih hf.2)
  | @emptyTuple p =>
    cases p with
    | plain top => exact Node.Normal.emptyTuple.lift top
    | quoted => exact .argument .emptyTuple
  | quotedTuple hitems ih => exact .quotedTuple (hmap ih hf.2.2)
  | unquoted h ih => exact .argument (ih hf.2.2.1)
  | raw hquote htuple hargs ih => exact .raw (escapeSymbol_ne_quote hquote) (hmap ih hf.2.2)
  | @rawCall pairs first hfirst hparts ih =>
    have hreadable : Form.AllReadable ((first :: pairs).map Prod.snd) := hf.2
    exact .raw (by decide) (hmap ih hreadable)
  | sequence hname hbody ih => exact (normal_sequence (hmap ih hf.2.2)).lift _
  | ifThen hname hcondition hthen ihCondition ihThen =>
    obtain ⟨-, -, hfirst, hsecond, -⟩ := hf
    exact (Node.Normal.ifThen (ihCondition hfirst) (ihThen hsecond)).lift _
  | ifElse hname hcondition hthen helse ihCondition ihThen ihElse =>
    obtain ⟨-, -, hfirst, hsecond, hthird, -⟩ := hf
    exact (Node.Normal.ifElse (ihCondition hfirst) (ihThen hsecond) (ihElse hthird)).lift _
  | quote hname hvalue ih => exact (Node.Normal.quote (ih hf.2.2.1)).lift _
  | interpolate hname hvalue ih => exact (Node.Normal.interpolate (ih hf.2.2.1)).lift _
  | letBlock hname hbindings heven hbody ihBindings ihBody =>
    obtain ⟨-, -, hvector, hrest⟩ := hf
    exact (Node.Normal.letBlock (hmap ihBindings hvector.2) (normal_sequence (hmap ihBody hrest))).lift _
  | lambda hname hparams hbody ihParams ihBody =>
    obtain ⟨-, -, hvector, hrest⟩ := hf
    exact (Node.Normal.lambda (hmap ihParams hvector.2) (normal_sequence (hmap ihBody hrest))).lift _
  | function hname hfunction hparams hbody ihFunction ihParams ihBody =>
    obtain ⟨-, -, hfirst, hvector, hrest⟩ := hf
    exact (Node.Normal.function (ihFunction hfirst) (hmap ihParams hvector.2)
      (normal_sequence (hmap ihBody hrest))).lift _
  | definition hname htarget hvalue ihTarget ihValue =>
    obtain ⟨-, -, hfirst, hsecond, -⟩ := hf
    exact .assignment (ihTarget hfirst) (ihValue hsecond)
  | subscript hname hcollection hindices ihCollection ihIndices =>
    obtain ⟨-, -, hfirst, hrest⟩ := hf
    exact (Node.Normal.subscript (ihCollection hfirst) (hmap ihIndices hrest)).lift _
  | range hname hparts hne hlength ih =>
    exact (normal_rangeOf (hmap ih hf.2.2) (by simpa using hne) (by simpa using hlength)).lift _
  | moduleBlock hname hmodule hbody ihModule ihBody =>
    obtain ⟨-, -, hfirst, hrest⟩ := hf
    exact (Node.Normal.moduleBlock (ihModule hfirst) (hmap ihBody hrest)).lift _
  | listing kind hname hparts hne ih =>
    exact (Node.Normal.listing kind (hmap ih hf.2.2) (by simpa using hne)).lift _
  | noParts hname => exact Node.Normal.emptyTuple.lift _
  | access hname hfull hbase ih => exact (normal_foldl (ih hf.2.2.1) _).lift _
  | ascription hname hparts hne ih =>
    exact (Node.Normal.ascription (hmap ih hf.2.2) (by simpa using hne)).lift _
  | macroCall hhead hlength hargs ih =>
    obtain ⟨hhead', hlength'⟩ := escapeSymbol_macro hhead hlength
    exact (Node.Normal.macroCall hhead' hlength' (hmap ih hf.2.2)).lift _
  | call hleads hcallee hargs ihCallee ihArgs =>
    obtain ⟨-, hfirst, hrest⟩ := hf
    exact (Node.Normal.call (ihCallee hfirst) (hmap ihArgs hrest)).lift _

end Bilisp
