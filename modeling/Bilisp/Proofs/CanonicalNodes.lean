import Bilisp.Proofs.Spelling

/-!
# Canonical nodes

The nodes that a host program is normally made of, defined along their kinds (`Node.Canonical`). What is left
out has no form of its own: a name such as `nil` is written like a literal, a call of a literal reads as no
call, and a path of operators is written like one operator.
-/

namespace Bilisp

/-! ## Names -/

/-- The host identifiers that are written like literals. -/
def literalNames : List Text := ["nil", "true", "false"]

/-- Whether a name is a host identifier that stands for nothing but itself. -/
def IsPlainName (name : Text) : Prop :=
  isHostName name = true ∧ name ∉ literalNames ∧ name ≠ Node.nothingName

/-- The operators of division, in which no segment of a path is found. -/
def slashNames : List Text := ["/", "//"]

/-! ## Nodes -/

namespace Node

/-- Whether a list that begins with the form of the node is a call. -/
def LeadsCall : Node → Prop
  | .literal _ => False
  | .quote (.identifier _) => False
  | .identifier name => SpecialForm.ofName? (unescapeSymbol name) = none
  | _ => True

/-- The nodes that are written and read in quoted mode. -/
inductive Quotable : Node → Prop
  | literal {value : Literal} (hvalue : ∀ number, value = .number number → number.IsRegular) :
    Quotable (.literal value)
  | name {name : Text} (hname : IsPlainName name) : Quotable (.identifier name)
  | operator {name : Text} (hname : isPlainOperator name = true ∨ name ∈ slashNames) : Quotable (.identifier name)
  | vector {items : List Node} (hitems : ∀ n ∈ items, Quotable n) : Quotable (.vector items)
  | tuple {items : List Node} (hitems : ∀ n ∈ items, Quotable n) : Quotable (.tuple items)
  | dictionary {nodes : List Node} (hentries : ∀ n ∈ nodes, Quotable n) (heven : nodes.length % 2 = 0) :
    Quotable (.dictionary nodes)
  | setOf {items : List Node} (hitems : ∀ n ∈ items, Quotable n) : Quotable (.setOf items)
  | raw {head : Text} {args : List Node}
    (hhead : (IsPlainName head ∧ head ≠ "quote".toList ∧ head ≠ "tuple".toList) ∨
      (isOperator head = true ∧ isSymbolToken head = true))
    (hargs : ∀ n ∈ args, Quotable n) : Quotable (.raw head args)

/-- The nodes that are read as what they are written for. Only a program or a module may hold assignments. -/
inductive Canonical : (topLevel : Bool) → Node → Prop
  | statement {n : Node} (h : Canonical false n) : Canonical true n
  | literal {value : Literal} (hvalue : ∀ number, value = .number number → number.IsRegular) :
    Canonical false (.literal value)
  | name {name : Text} (hname : IsPlainName name) : Canonical false (.identifier name)
  | operator {name : Text} (hname : isPlainOperator name = true ∨ name ∈ slashNames) :
    Canonical false (.identifier name)
  | keyword {name : Text} (hname : isHostName name = true ∨ isPlainOperator name = true) :
    Canonical false (.quote (.identifier name))
  | quote {value : Node} (hname : ∀ name, value ≠ .identifier name)
    (hvalue : Canonical false value) : Canonical false (.quote value)
  | interpolate {value : Node} (hvalue : Canonical false value) : Canonical false (.interpolate value)
  | call {callee : Node} {args : List Node} (hcallee : Canonical false callee)
    (hargs : ∀ n ∈ args, Canonical false n) (hleads : callee.LeadsCall) (hratio : ratio? callee args = none) :
    Canonical false (.call callee args)
  | ifThen {condition thenBranch : Node} (hcondition : Canonical false condition)
    (hthen : Canonical false thenBranch) : Canonical false (.ifThen condition thenBranch)
  | ifElse {condition thenBranch elseBranch : Node} (hcondition : Canonical false condition)
    (hthen : Canonical false thenBranch) (helse : Canonical false elseBranch) :
    Canonical false (.ifElse condition thenBranch elseBranch)
  | block {body : List Node} (hbody : ∀ n ∈ body, Canonical false n) (hlength : 2 ≤ body.length) :
    Canonical false (.block body)
  | letBlock {bindings : List (Node × Node)} {body : Node}
    (htargets : ∀ b ∈ bindings, Canonical false b.1) (hvalues : ∀ b ∈ bindings, Canonical false b.2)
    (hbody : Canonical false body) :
    Canonical false (.letBlock (bindings.map fun b => .assignment b.1 b.2) body)
  | function {name : Node} {params : List Node} {body : Node} (hname : Canonical false name)
    (hvector : ∀ items, name ≠ .vector items) (hparams : ∀ n ∈ params, Canonical false n)
    (hbody : Canonical false body) : Canonical false (.function name params body)
  | lambda {params : List Node} {body : Node} (hparams : ∀ n ∈ params, Canonical false n)
    (hbody : Canonical false body) : Canonical false (.lambda params body)
  | assignment {target value : Node} (htarget : Canonical false target) (hvalue : Canonical false value) :
    Canonical true (.assignment target value)
  | listing (kind : Listing) {parts : List Node} (hparts : ∀ n ∈ parts, Canonical false n)
    (hne : parts ≠ [] ∨ kind.MayBeEmpty) : Canonical false (kind.node parts)
  | emptyTuple : Canonical false (.tuple [])
  | subscript {collection : Node} {indices : List Node} (hcollection : Canonical false collection)
    (hindices : ∀ n ∈ indices, Canonical false n) : Canonical false (.subscript collection indices)
  | range {parts : List Node} (hparts : ∀ n ∈ parts, Canonical false n)
    (hlength : parts.length = 2 ∨ parts.length = 3) : Canonical false (.range parts)
  | field {base : Node} {name : Text} (hbase : Canonical false base)
    (hname : isHostName name = true ∨ isPlainOperator name = true)
    (hslash : ∀ slash ∈ slashNames, base ≠ .identifier slash)
    (hoperators : ∀ other, base = .identifier other → isOperator other = true → isPlainOperator name = false)
    (hliteral : name ∈ literalNames → base.isPath = true ∨ ∃ inner field, base = .dotAccess inner field) :
    Canonical false (.dotAccess base name)
  | ascription {operands : List Node} (hoperands : ∀ n ∈ operands, Canonical false n)
    (hne : operands ≠ [])
    (hnames : ∀ names : List Text, operands = names.map .identifier →
      (∃ name ∈ names, isOperator name = false) ∧ ∀ name ∈ names, name ∉ slashNames)
    (htyped : ∀ base type, operands = [base, .identifier type] → base.isPath = true → type ∉ slashNames) :
    Canonical false (.ascription operands)
  | macroCall {name : Text} {args : List Node} (hname : isHostName name = true)
    (hargs : ∀ n ∈ args, Quotable n) : Canonical false (.macroCall ('@' :: name) args)
  | moduleBlock {name : Node} {body : List Node} (hname : Canonical false name)
    (hbody : ∀ n ∈ body, Canonical true n) : Canonical false (.moduleBlock name body)
  | vector {items : List Node} (hitems : ∀ n ∈ items, Canonical false n) :
    Canonical false (.vector items)

end Node

/-! ## Symbols of canonical names -/

lemma isOperator_of_isHostName {name : Text} (h : isHostName name = true) : isOperator name = false :=
  isOperator_append (.inl rfl) h

lemma NamePair.eq_of_isOperator {host segment : Text} (h : NamePair host segment)
    (hop : isOperator segment = true) : segment = host := by
  rw [← h.escape, escapeSymbol_operator hop]

lemma NamePair.not_operator {host segment : Text} (h : NamePair host segment) (hop : isOperator host = false) :
    isOperator segment = false := by
  rw [← Bool.not_eq_true]
  intro hsegment
  rw [h.eq_of_isOperator hsegment, hop] at hsegment
  cases hsegment

/-- The segment of a name. It begins neither like a number nor like a macro. -/
lemma exists_segment {name : Text} (h : isHostName name = true ∨ isPlainOperator name = true) :
    ∃ segment, NamePair name segment ∧ startsNumber segment = false ∧ segment.head? ≠ some '@' ∧
      (isOperator segment = true → isPlainOperator name = true) := by
  rcases h with h | h
  · refine ⟨unescapeSymbol name, namePair_hostName h, startsNumber_unescapeSymbol h, head?_unescapeSymbol h, ?_⟩
    intro hop
    rw [(namePair_hostName h).eq_of_isOperator hop, isOperator_of_isHostName h] at hop
    cases hop
  · refine ⟨name, namePair_plainOperator h, ?_, ?_, fun _ => h⟩
    · exact startsNumber_of_not_digits fun c hc => (plainOperator_chars h c hc).2
    · intro hhead
      have hmem := List.mem_of_mem_head? hhead
      rw [isPlainOperator, Bool.and_eq_true, List.all_eq_true] at h
      exact absurd (h.2 '@' hmem) (by decide)

lemma readable_segment {name segment : Text} (hpair : NamePair name segment)
    (hstart : startsNumber segment = false) (hname : name ∉ literalNames) : (Atom.symbol segment).Readable := by
  have htoken := isSymbolToken_of_isPath (all_isAtomChar_segment hpair.isSegment)
    (continuesPath_segment true hpair.isSegment) hstart
  have hne : ∀ other ∈ literalNames, segment ≠ other := by
    rintro other hmem rfl
    have hescape : ∀ other ∈ literalNames, escapeSymbol other = other := by decide
    rw [← hpair.escape, hescape segment hmem] at hname
    exact hname hmem
  exact ⟨lexemes?_eq_symbol_iff.2 htoken, hne _ (by decide), hne _ (by decide), hne _ (by decide)⟩

/-- Whether the symbol of a path can be written, and does not begin like a macro. -/
structure PathSpelling (n : Node) (s : Text) : Prop where
  pair : PathPair n s
  start : startsNumber s = false
  lead : s.head? ≠ some '@'
  readable : (Atom.symbol s).Readable

lemma pathSpelling_name {name : Text} (h : isHostName name = true ∨ isPlainOperator name = true)
    (hnothing : name ≠ Node.nothingName) (hname : name ∉ literalNames) :
    ∃ s, PathSpelling (.identifier name) s := by
  obtain ⟨segment, hpair, hstart, hlead, -⟩ := exists_segment h
  exact ⟨segment, .name hpair hnothing, hstart, hlead, readable_segment hpair hstart hname⟩

/-- A text with a separator in it is none of the names of literals. -/
lemma readable_of_mem {s : Text} (htoken : isSymbolToken s = true) (hmem : '.' ∈ s ∨ ':' ∈ s) :
    (Atom.symbol s).Readable := by
  refine ⟨lexemes?_eq_symbol_iff.2 htoken, ?_, ?_, ?_⟩
  all_goals
    rintro rfl
    revert hmem
    decide

lemma PathSpelling.field {base : Node} {s name : Text} (hbase : PathSpelling base s)
    (hname : isHostName name = true ∨ isPlainOperator name = true)
    (hoperators : isOperator s = true → isPlainOperator name = false) :
    ∃ t, PathSpelling (.dotAccess base name) t := by
  obtain ⟨segment, hpair, -, -, hop⟩ := exists_segment hname
  have hne := hbase.pair.ne_nil
  have hpath : PathPair (.dotAccess base name) (s ++ '.' :: segment) := by
    refine .field hbase.pair hpair ?_
    rintro ⟨hs, hsegment⟩
    rw [hoperators hs] at hop
    cases hop hsegment
  have hstart : startsNumber (s ++ '.' :: segment) = false :=
    (startsNumber_append hne (by decide) segment).trans hbase.start
  refine ⟨_, hpath, hstart, ?_, readable_of_mem (hpath.isSymbolToken hstart) (.inl (by simp))⟩
  rw [List.head?_append_of_ne_nil _ hne]
  exact hbase.lead

/-- A canonical path that is no division has a symbol. -/
lemma exists_pathSpelling {top : Bool} {n : Node} (h : n.Canonical top) (hpath : n.isPath = true)
    (hslash : ∀ slash ∈ slashNames, n ≠ .identifier slash) : ∃ s, PathSpelling n s := by
  induction h with
  | statement h ih => exact ih hpath hslash
  | name hname => exact pathSpelling_name (.inl hname.1) hname.2.2 hname.2.1
  | operator hname =>
    rcases hname with hname | hname
    · have hop := isOperator_of_isPlainOperator hname
      refine pathSpelling_name (.inr hname) ?_ ?_
      · rintro rfl
        cases hop
      · intro hmem
        have hliterals : ∀ other ∈ literalNames, isOperator other = false := by decide
        rw [hliterals _ hmem] at hop
        cases hop
    · exact absurd rfl (hslash _ hname)
  | field hbase hname hslash' hoperators hliteral ih =>
    obtain ⟨s, hs⟩ := ih hpath hslash'
    refine hs.field hname fun hop => ?_
    exact hoperators s (hs.pair.eq_identifier hop) hop
  | listing kind hparts hne ih => cases kind <;> cases hpath
  | _ => cases hpath

end Bilisp
