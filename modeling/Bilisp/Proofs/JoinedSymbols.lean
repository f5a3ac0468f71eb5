import Bilisp.Proofs.Composition
import Bilisp.Proofs.NodeRoundTrip
import Bilisp.Proofs.NormalNodes
import Bilisp.Proofs.RespelledNames
import Bilisp.Proofs.SettledPrograms

/-!
# Symbols behind a point or colons

A list of symbols behind a point or behind `::` becomes a field or an ascription, which is written as one symbol
where that is shorter. The program of what is written is the node again, if the names that are joined keep apart
(`joined_symbols_round_trip`): names of operators, and the name of no value in front of a field, do not.
-/

namespace Bilisp

/-! ## Names that keep apart -/

namespace Node

/-- The names of a path from left to right. -/
def names : Node → List Text
  | .identifier name => [name]
  | .dotAccess base field => names base ++ [field]
  | _ => []

/-- A node with fields of fields behind it. -/
def withFields (base : Node) (fields : List Text) : Node := fields.foldl .dotAccess base

/-- Whether names can be joined to one symbol: each is written as a segment, some of them is no operator, and the
first one is not written like a number. -/
structure NamesJoin (names : List Text) : Prop where
  segments : ∀ name ∈ names, isSegment (unescapeSymbol name) = true
  operator : ∃ name ∈ names, isOperator name = false
  start : ∀ name ∈ names.head?, startsNumber (unescapeSymbol name) = false

/-- Whether the names in a path or an ascription keep apart when it is written. What is joined to one symbol has to be
names that join, and no path begins with the name of no value. A name alone must not be written like a literal, a
field behind a list not like a number. -/
inductive KeepsNames : Node → Prop
  | name {name : Text} (hnothing : name ≠ nothingName) (hliteral : name ∉ literalNames)
    (hstart : startsNumber (unescapeSymbol name) = false) : KeepsNames (.identifier name)
  | path {base : Node} {field : Text} (hpath : base.isPath = true) (hnothing : base.names.head? ≠ some nothingName)
    (hjoin : NamesJoin (base.names ++ [field])) : KeepsNames (.dotAccess base field)
  | field {operands : List Node} {field : Text} (hbase : KeepsNames (.ascription operands))
    (hstart : startsNumber (unescapeSymbol field) = false) : KeepsNames (.dotAccess (.ascription operands) field)
  | fields {base : Node} {inner field : Text} (hpath : base.isPath = false)
    (hbase : KeepsNames (.dotAccess base inner)) : KeepsNames (.dotAccess (.dotAccess base inner) field)
  | typeName {name : Text} (hoperator : isOperator name = false) : KeepsNames (.ascription [.identifier name])
  | typeNames {names : List Text} (hlength : 2 ≤ names.length) (hjoin : NamesJoin names) :
    KeepsNames (.ascription (names.map .identifier))
  | typedPath {base : Node} {field type : Text} (hpath : base.isPath = true)
    (hnothing : base.names.head? ≠ some nothingName) (hjoin : NamesJoin (base.names ++ [field, type])) :
    KeepsNames (.ascription [.dotAccess base field, .identifier type])
  | operands {operands : List Node} (hoperands : ∀ n ∈ operands, KeepsNames n)
    (hnames : ∀ names : List Text, operands ≠ names.map .identifier)
    (hpath : ∀ base field type, operands = [.dotAccess base field, .identifier type] → base.isPath = false) :
    KeepsNames (.ascription operands)

end Node

/-! ## Paths and their names -/

section

variable {n : Node}

lemma names_ne_nil (h : n.isPath = true) : n.names ≠ [] := by
  cases n with
  | identifier name => exact List.cons_ne_nil _ _
  | dotAccess base field => exact List.append_ne_nil_of_right_ne_nil _ (List.cons_ne_nil _ _)
  | _ => cases h

lemma withFields_append (base : Node) (fields : List Text) (field : Text) :
    base.withFields (fields ++ [field]) = .dotAccess (base.withFields fields) field := List.foldl_append

lemma isPath_withFields (base : Node) (fields : List Text) : (base.withFields fields).isPath = base.isPath := by
  induction fields generalizing base with
  | nil => rfl
  | cons field rest ih => exact ih (.dotAccess base field)

lemma names_withFields (base : Node) (fields : List Text) : (base.withFields fields).names = base.names ++ fields := by
  induction fields generalizing base with
  | nil => exact (List.append_nil _).symm
  | cons field rest ih =>
    refine (ih (.dotAccess base field)).trans ?_
    rw [Node.names, List.append_assoc]
    rfl

lemma exists_dotAccess (base : Node) (field : Text) (fields : List Text) :
    ∃ inner last, base.withFields (field :: fields) = .dotAccess inner last := by
  induction fields generalizing base field with
  | nil => exact ⟨base, field, rfl⟩
  | cons other rest ih => exact ih (.dotAccess base field) other

lemma head?_names_append (h : n.isPath = true) (names : List Text) : (n.names ++ names).head? = n.names.head? :=
  List.head?_append_of_ne_nil _ (names_ne_nil h)

/-- A path of which each name has a segment has a symbol, which does not begin like a number if the first name does
not, and is an operator only if all names are. -/
lemma exists_joinsPath (hpath : n.isPath = true) (hnothing : n.names.head? ≠ some Node.nothingName)
    (hstart : ∀ name ∈ n.names.head?, startsNumber (unescapeSymbol name) = false)
    (hnames : ∀ name ∈ n.names, NamePair name (unescapeSymbol name)) :
    ∃ s, JoinsPath n s ∧ startsNumber s = false ∧
      (isOperator s = true → ∀ name ∈ n.names, isOperator name = true) := by
  fun_induction Node.isPath n with
  | case1 name =>
    have hpair := hnames name List.mem_cons_self
    refine ⟨_, .name hpair fun heq => hnothing (congrArg some heq), hstart name rfl, fun hop => ?_⟩
    rw [hpair.eq_of_isOperator hop] at hop
    simpa [Node.names] using hop
  | case2 base field ih =>
    rw [Node.names, head?_names_append hpath] at hnothing hstart
    rw [Node.names, List.forall_mem_append, List.forall_mem_singleton] at hnames
    obtain ⟨s, hs, hnumber, hoperator⟩ := ih hpath hnothing hstart hnames.1
    refine ⟨_, .field hs hnames.2, (startsNumber_append hs.ne_nil (by decide) _).trans hnumber, fun hop => ?_⟩
    obtain ⟨hop, hfield⟩ := (isOperator_append_iff ['.'] rfl hs.ne_nil (segment_ne_nil hnames.2.isSegment)).1 hop
    rw [hnames.2.eq_of_isOperator hfield] at hfield
    rw [Node.names, List.forall_mem_append, List.forall_mem_singleton]
    exact ⟨hoperator hop, hfield⟩
  | case3 => cases hpath

end

/-! ## Nodes of symbols -/

/-- Whether a node is what a symbol is converted to, as the names in it show: an operator, or a path or an ascription
of paths of which all names have segments. -/
inductive Node.FromSymbol : Node → Prop
  | operator {name : Text} (hop : isOperator name = true) (htoken : isSymbolToken name = true) :
    FromSymbol (.identifier name)
  | path {n : Node} (hpath : n.isPath = true) (hnames : ∀ name ∈ n.names, NamePair name (unescapeSymbol name)) :
    FromSymbol n
  | ascription {operands : List Node} (hne : operands ≠ []) (hpaths : ∀ n ∈ operands, n.isPath = true)
    (hnames : ∀ n ∈ operands, ∀ name ∈ n.names, NamePair name (unescapeSymbol name)) :
    FromSymbol (.ascription operands)

lemma pathNode?_eq_some {s : Text} {n : Node} (h : pathNode? s = some n) :
    n.isPath = true ∧ n.names = (splitPath s).map escapeSymbol := by
  unfold pathNode? at h
  split at h
  · cases h
  next base fields hsplit =>
    split at h
    · cases h
    · rw [← Option.some.inj h, ← List.foldl_map, hsplit]
      exact ⟨isPath_withFields _ _, names_withFields _ _⟩

lemma fromSymbol_path {s : Text} {n : Node} (hsegments : ∀ segment ∈ splitPath s, isSegment segment = true)
    (h : pathNode? s = some n) : n.isPath = true ∧ ∀ name ∈ n.names, NamePair name (unescapeSymbol name) := by
  obtain ⟨hpath, hnames⟩ := pathNode?_eq_some h
  refine ⟨hpath, ?_⟩
  rw [hnames, List.forall_mem_map]
  exact fun segment hsegment => namePair_respelled (hsegments segment hsegment)

lemma fromSymbol_of_symbolNode? {s : Text} {n : Node} (htoken : isSymbolToken s = true) (h : symbolNode? s = some n) :
    n.FromSymbol := by
  obtain ⟨htext, -⟩ := isSymbolToken_iff.1 htoken
  rw [isSymbolText, Bool.or_eq_true] at htext
  rw [symbolNode?] at h
  split at h
  next hop =>
    rw [← Option.some.inj h]
    exact .operator hop htoken
  next hop =>
    have hsegments := segments_of_isPath (htext.resolve_left hop)
    split at h
    next hmark =>
      obtain ⟨operands, hoperands, rfl⟩ := Option.map_eq_some_iff.1 h
      have hne : operands ≠ [] := ne_nil_of_length_eq (isPath_of_mapM hoperands).1 (ascribedParts_ne_nil hmark)
      have hparts : ∀ n ∈ operands, n.isPath = true ∧ ∀ name ∈ n.names, NamePair name (unescapeSymbol name) := by
        intro n hn
        obtain ⟨part, hpart, hnode⟩ := exists_of_mem_forall₂ (forall₂_pathNode? hoperands) n hn
        exact fromSymbol_path (hsegments part hpart) hnode
      exact .ascription hne (fun n hn => (hparts n hn).1) fun n hn => (hparts n hn).2
    next hmark =>
      have hpart : ascribedParts s = [s] := by
        cases s with
        | nil => cases h
        | cons c rest => rw [ascribedParts, splitAscription_of_hasAscription (by simpa using hmark)]
      obtain ⟨hpath, hnames⟩ := fromSymbol_path (hsegments s (by rw [hpart]; exact List.mem_cons_self)) h
      exact .path hpath hnames

/-- A name of such a node that is written as a segment has the segment. -/
lemma Node.FromSymbol.namePair {name : Text} (h : (Node.identifier name).FromSymbol)
    (hsegment : isSegment (unescapeSymbol name) = true) : NamePair name (unescapeSymbol name) := by
  cases h with
  | operator hop htoken => exact ⟨hsegment, by rw [unescapeSymbol_operator hop, escapeSymbol_operator hop], rfl⟩
  | path hpath hnames => exact hnames name List.mem_cons_self

/-! ## What the nodes are written as -/

section

variable {top : Bool}

/-- A path of which the names join is written as one symbol. -/
lemma exists_symbol {base : Node} {field : Text} (hpath : base.isPath = true)
    (hnothing : base.names.head? ≠ some Node.nothingName) (hjoin : Node.NamesJoin (base.names ++ [field]))
    (hnames : ∀ name ∈ base.names ++ [field], NamePair name (unescapeSymbol name)) :
    ∃ g, Spells (.plain top) (.dotAccess base field) g := by
  rw [← head?_names_append hpath [field]] at hnothing
  obtain ⟨s, hs, hstart, hoperator⟩ :=
    exists_joinsPath (n := .dotAccess base field) hpath hnothing hjoin.start hnames
  have hsymbol : symbolNode? s = some (.dotAccess base field) := by
    refine hs.symbolNode? fun hop => ?_
    obtain ⟨name, hname, hplain⟩ := hjoin.operator
    rw [hoperator hop name hname] at hplain
    cases hplain
  have hpoint : '.' ∈ s := by
    cases hs with
    | field hbase hpair => simp
  exact ⟨_, .symbol (hs.toForm top) hsymbol (readable_of_mem (hs.isSymbolToken hstart) (.inl hpoint))⟩

lemma exists_path {n : Node} (hpath : n.isPath = true) (hnames : ∀ name ∈ n.names, NamePair name (unescapeSymbol name))
    (hkeeps : n.KeepsNames) : ∃ g, Spells (.plain top) n g := by
  cases hkeeps with
  | @name name hnothing hliteral hstart =>
    have hpair := hnames name List.mem_cons_self
    exact ⟨_, .path (.name hpair hnothing) (readable_segment hpair hstart hliteral)⟩
  | path hbase hnothing hjoin => exact exists_symbol hbase hnothing hjoin hnames
  | fields hbase =>
    rw [Node.isPath, Node.isPath, hbase] at hpath
    cases hpath
  | _ => cases hpath

/-- An ascription is written as one symbol or as a list of what its operands are written as. -/
lemma exists_ascribed {operands : List Node} (hoperands : ∀ n ∈ operands, n.FromSymbol) (hne : operands ≠ [])
    (hspells : ∀ n ∈ operands, n.KeepsNames → ∃ g, Spells (.plain false) n g)
    (hkeeps : (Node.ascription operands).KeepsNames) : ∃ g, Spells (.plain top) (.ascription operands) g := by
  cases hkeeps with
  | @typeName name hoperator =>
    cases hoperands _ List.mem_cons_self with
    | operator hop htoken =>
      rw [hop] at hoperator
      cases hoperator
    | path hpath hnames =>
      have hpair := hnames name List.mem_cons_self
      exact ⟨_, .typeName hpair (hpair.not_operator hoperator)⟩
  | @typeNames names hlength hjoin =>
    have hpair : ∀ name ∈ names, NamePair name (unescapeSymbol name) := fun name hname =>
      (hoperands _ (List.mem_map_of_mem hname)).namePair (hjoin.segments name hname)
    obtain ⟨name, hname, hplain⟩ := hjoin.operator
    have hparts : ∀ q ∈ names.map (fun name => (Node.identifier name, unescapeSymbol name)), TypePart q.1 q.2 := by
      rw [List.forall_mem_map]
      exact fun name hname => (hpair name hname).typePart
    obtain ⟨-, hreadable⟩ := readable_join hparts (by simpa using hlength) (by simpa using hjoin.start)
    let pairs : List (Text × Text) := names.map fun name => (name, unescapeSymbol name)
    have hpairs : ∀ q ∈ pairs, NamePair q.1 q.2 := List.forall_mem_map.2 hpair
    have hspells : Spells (.plain top) _ _ :=
      .typeNames hpairs (by simpa [pairs] using hlength)
        ⟨_, List.mem_map_of_mem hname, (hpair name hname).not_operator hplain⟩
        (by rwa [List.map_map] at hreadable ⊢)
    rw [List.map_map] at hspells
    exact ⟨_, hspells⟩
  | @typedPath base field type hpath hnothing hjoin =>
    have hbase : ∀ name ∈ (Node.dotAccess base field).names, NamePair name (unescapeSymbol name) := by
      cases hoperands _ List.mem_cons_self with
      | path hpath hnames => exact hnames
    have htype : NamePair type (unescapeSymbol type) :=
      (hoperands _ (by simp)).namePair (hjoin.segments type (by simp))
    have hstart := hjoin.start
    rw [head?_names_append hpath, ← head?_names_append hpath [field]] at hstart
    rw [← head?_names_append hpath [field]] at hnothing
    obtain ⟨s, hs, hnumber, hoperator⟩ :=
      exists_joinsPath (n := .dotAccess base field) hpath hnothing hstart hbase
    have hplain : isOperator s = false ∨ isOperator (unescapeSymbol type) = false := by
      obtain ⟨name, hname, hplain⟩ := hjoin.operator
      have hmem : name ∈ (Node.dotAccess base field).names ∨ name = type := by simpa [Node.names, or_assoc] using hname
      rcases hmem with hmem | rfl
      · refine .inl (Bool.not_eq_true _ ▸ fun hop => ?_)
        rw [hoperator hop name hmem] at hplain
        cases hplain
      · exact .inr (htype.not_operator hplain)
    have hparts : ∀ q ∈ [(Node.dotAccess base field, s), (Node.identifier type, unescapeSymbol type)],
        TypePart q.1 q.2 :=
      List.forall_mem_cons.2 ⟨hs.typePart, List.forall_mem_singleton.2 htype.typePart⟩
    obtain ⟨-, hreadable⟩ := readable_join hparts le_rfl (by simpa using hnumber)
    rw [List.map_cons, List.map_cons, List.map_nil, join_cons_cons, join_singleton, ← List.append_assoc] at hreadable
    exact ⟨_, .typedJoin hs htype hplain hreadable⟩
  | operands hkept hnames hpath =>
    obtain ⟨pairs, rfl, hpairs⟩ := exists_pairs fun n hn => hspells n hn (hkept n hn)
    have hidentifiers : identifierNames? (pairs.map Prod.fst) = none := by
      cases hnone : identifierNames? (pairs.map Prod.fst) with
      | none => rfl
      | some names => exact absurd (identifierNames?_eq_some hnone) (hnames names)
    exact ⟨_, .ascription hpairs (by simpa using hne) (ascriptionSymbol?_eq_none hpairs hidentifiers hpath)⟩

/-- The node of a symbol of which the names keep apart has a form that spells it. -/
lemma exists_spells_fromSymbol {n : Node} (h : n.FromSymbol) (hkeeps : n.KeepsNames) :
    ∃ g, Spells (.plain top) n g := by
  cases h with
  | operator hop htoken => exact ⟨_, .operator hop htoken⟩
  | path hpath hnames => exact exists_path hpath hnames hkeeps
  | ascription hne hpaths hnames =>
    refine exists_ascribed (fun n hn => .path (hpaths n hn) (hnames n hn)) hne ?_ hkeeps
    exact fun n hn hkept => exists_path (hpaths n hn) (hnames n hn) hkept

end

/-! ## Fields behind ascriptions -/

lemma join_concat {separator : Text} {texts : List Text} (hne : texts ≠ []) (t : Text) :
    Text.join separator (texts ++ [t]) = Text.join separator texts ++ separator ++ t := by
  induction texts with
  | nil => exact absurd rfl hne
  | cons u rest ih =>
    cases rest with
    | nil => rw [List.singleton_append, join_cons_cons, join_singleton, join_singleton, List.append_assoc]
    | cons v rest =>
      rw [List.cons_append, List.cons_append, join_cons_cons, ← List.cons_append, ih (List.cons_ne_nil _ _),
        join_cons_cons]
      simp only [List.append_assoc]

/-- Behind a form that takes no field into its symbol, fields share one symbol. -/
lemma toForm_withFields {base : Node} {g : Form} (hbase : base.toForm false = .ok g)
    (hfield : ∀ segment, fieldForm g segment = .headed "." [g, .symbol segment]) (field : Text) (fields : List Text)
    (top : Bool) :
    (base.withFields (field :: fields)).toForm top =
      .ok (.headed "." [g, .symbol (Text.join "." ((field :: fields).map unescapeSymbol))]) := by
  induction fields using List.reverseRecOn generalizing top with
  | nil =>
    change (Node.dotAccess base field).toForm top = _
    rw [Node.toForm, hbase]
    change Except.ok (fieldForm _ _) = _
    rw [hfield, List.map_cons, List.map_nil, join_singleton]
  | append_singleton fields last ih =>
    rw [← List.cons_append, withFields_append, Node.toForm, ih]
    change Except.ok (fieldForm (.headed _ _) _) = _
    rw [Form.headed, Form.list, Form.symbol, Form.symbol, fieldForm, if_pos rfl, List.map_append, List.map_singleton,
      join_concat (by simp)]
    rfl

/-- What keeps apart in fields behind an ascription keeps apart in the ascription. -/
lemma keepsNames_withFields {operands : List Node} {field : Text} {fields : List Text}
    (h : ((Node.ascription operands).withFields (field :: fields)).KeepsNames) :
    (Node.ascription operands).KeepsNames ∧ startsNumber (unescapeSymbol field) = false := by
  induction fields using List.reverseRecOn with
  | nil =>
    change (Node.dotAccess (.ascription operands) field).KeepsNames at h
    cases h with
    | path hpath => cases hpath
    | field hbase hstart => exact ⟨hbase, hstart⟩
  | append_singleton fields last ih =>
    obtain ⟨inner, other, hinner⟩ := exists_dotAccess (.ascription operands) field fields
    rw [← List.cons_append, withFields_append, hinner] at h
    rw [hinner] at ih
    cases h with
    | path hpath =>
      rw [← hinner, isPath_withFields] at hpath
      cases hpath
    | fields hpath hbase => exact ih hbase

/-- Fields behind an ascription are written behind its form, with what is written again for the parts of their symbol. -/
lemma match_withFields {operands : List Node} {g : Form} {f u : Text} {us : List Text}
    (hg : Spells (.plain false) (.ascription operands) g) (hf : (Atom.symbol f).Readable)
    (hsplit : splitPath f = u :: us) (hfull : (u :: us).any List.isEmpty = false)
    (hstart : startsNumber (respelled u) = false) (top : Bool) :
    Match (.plain top) ((Node.ascription operands).withFields ((u :: us).map escapeSymbol))
      (.headed "." [g, .symbol (Text.join "." ((u :: us).map respelled))]) := by
  have hne : ∀ v ∈ u :: us, v ≠ [] := by simpa using hfull
  have hreadable : (Atom.symbol (Text.join "." ((u :: us).map respelled))).Readable := by
    have htoken := isSymbolToken_respelled (lexemes?_eq_symbol_iff.1 hf.1) hsplit hne hstart
    cases us with
    | nil =>
      obtain rfl := eq_of_splitPath hsplit
      have hliteral : f ∉ literalNames := by simpa [literalNames] using hf.2
      have hliteral' := respelled_not_literal hliteral
      rw [List.map_cons, List.map_nil, join_singleton] at htoken ⊢
      exact ⟨lexemes?_eq_symbol_iff.2 htoken, by simpa [literalNames] using hliteral'⟩
    | cons v us =>
      refine readable_of_mem htoken (.inl ?_)
      rw [List.map_cons, List.map_cons, join_cons_cons]
      simp
  refine .ofSpecial rfl ⟨hg.converts.readable, hreadable, trivial⟩ ?_ ?_
  · have hwritten := toForm_withFields hg.converts.toForm (fieldForm_eq hg rfl (by simp)) (escapeSymbol u)
      (us.map escapeSymbol) top
    rwa [← List.map_cons, List.map_map] at hwritten
  · have hpieces := splitPath_join_respelled f
    rw [hsplit] at hpieces
    have hrespelled : ((u :: us).map respelled).any List.isEmpty = false := by
      rw [List.any_eq_false]
      intro v hv
      obtain ⟨w, hw, rfl⟩ := List.mem_map.1 hv
      simpa using respelled_ne_nil (hne w hw)
    rw [Form.symbol, Form.toSpecialNode, hpieces, hg.converts.toNode]
    dsimp only
    rw [hrespelled, if_neg Bool.false_ne_true]
    refine congrArg Except.ok ?_
    rw [Node.withFields, List.foldl_map, List.foldl_map]
    simp only [escapeSymbol_respelled]

/-! ## The round trip -/

section

variable {top : Bool} {n : Node}

lemma fromSymbol_of_toNode {s : Text} {span : Option Span} (hs : (Atom.symbol s).Readable)
    (h : (Form.atom (.symbol s) span).toNode top = .ok n) : n.FromSymbol := by
  rw [Form.toNode, atomNode] at h
  split at h
  next node hnode =>
    rw [← Except.ok.inj h]
    exact fromSymbol_of_symbolNode? (lexemes?_eq_symbol_iff.1 hs.1) hnode
  next => cases h

/-- A path with fields behind it is written as one symbol. -/
lemma exists_pathFields {base : Node} (hbase : base.FromSymbol) (hpath : base.isPath = true) {u : Text}
    {us : List Text} (hkeeps : (base.withFields ((u :: us).map escapeSymbol)).KeepsNames) :
    ∃ g, Spells (.plain top) (base.withFields ((u :: us).map escapeSymbol)) g := by
  have hhosts : ∀ name ∈ (base.withFields ((u :: us).map escapeSymbol)).names,
      escapeSymbol (unescapeSymbol name) = name := by
    rw [names_withFields, List.forall_mem_append, List.forall_mem_map]
    refine ⟨fun name hname => ?_, fun v _ => escapeSymbol_respelled v⟩
    cases hbase with
    | operator hop htoken =>
      obtain rfl := List.mem_singleton.1 hname
      rw [unescapeSymbol_operator hop, escapeSymbol_operator hop]
    | path _ hnames => exact (hnames name hname).escape
    | ascription => cases hpath
  rw [← isPath_withFields base ((u :: us).map escapeSymbol)] at hpath
  obtain ⟨inner, last, heq⟩ := exists_dotAccess base (escapeSymbol u) (us.map escapeSymbol)
  rw [← List.map_cons] at heq
  rw [heq] at hhosts hkeeps hpath ⊢
  cases hkeeps with
  | path hinner hnothing hjoin =>
    exact exists_symbol hinner hnothing hjoin fun name hname => ⟨hjoin.segments name hname, hhosts name hname, rfl⟩
  | field => cases hpath
  | fields hinner =>
    rw [Node.isPath, Node.isPath, hinner] at hpath
    cases hpath

lemma exists_match_access {b f : Text} (hb : (Atom.symbol b).Readable) (hf : (Atom.symbol f).Readable)
    (hnode : (Form.headed "." [.symbol b, .symbol f]).toNode top = .ok n) (hkeeps : n.KeepsNames) (top' : Bool) :
    ∃ g, Match (.plain top') n g := by
  rw [toNode_headed rfl, Form.symbol, Form.symbol, Form.toSpecialNode] at hnode
  dsimp only at hnode
  split at hnode
  · cases hnode
  next hfull =>
    simp only [bind_eq_ok, pure_eq_ok] at hnode
    obtain ⟨base, hbase, rfl⟩ := hnode
    have hsymbol := fromSymbol_of_toNode hb hbase
    rw [← List.foldl_map] at hkeeps ⊢
    obtain ⟨u, us, hsplit⟩ := List.exists_cons_of_ne_nil (splitPath_ne_nil f)
    rw [hsplit] at hfull hkeeps ⊢
    cases hpath : base.isPath with
    | true =>
      exact (exists_pathFields hsymbol hpath hkeeps).imp fun g hg => hg.converts
    | false =>
      cases hsymbol with
      | operator => cases hpath
      | path hpath' =>
        rw [hpath] at hpath'
        cases hpath'
      | ascription hne hpaths hnames =>
        obtain ⟨hkept, hstart⟩ := keepsNames_withFields hkeeps
        obtain ⟨g, hg⟩ : ∃ g, Spells (.plain false) _ g :=
          exists_spells_fromSymbol (.ascription hne hpaths hnames) hkept
        exact ⟨_, match_withFields hg hf hsplit (Bool.not_eq_true _ ▸ hfull) hstart top'⟩

lemma fromSymbol_of_toNodes {symbols : List Text} {nodes : List Node}
    (hsymbols : ∀ s ∈ symbols, (Atom.symbol s).Readable) (h : Form.toNodes (symbols.map .symbol) = .ok nodes) :
    nodes.length = symbols.length ∧ ∀ n ∈ nodes, n.FromSymbol := by
  induction symbols generalizing nodes with
  | nil =>
    cases h
    exact ⟨rfl, List.forall_mem_nil _⟩
  | cons s rest ih =>
    obtain ⟨hs, hrest⟩ := List.forall_mem_cons.1 hsymbols
    rw [List.map_cons, Form.toNodes] at h
    simp only [bind_eq_ok, pure_eq_ok] at h
    obtain ⟨n, hn, others, hothers, rfl⟩ := h
    obtain ⟨hlength, hsymbol⟩ := ih hrest hothers
    exact ⟨congrArg (· + 1) hlength, List.forall_mem_cons.2 ⟨fromSymbol_of_toNode hs hn, hsymbol⟩⟩

lemma exists_match_ascription {symbols : List Text} (hsymbols : ∀ s ∈ symbols, (Atom.symbol s).Readable)
    (hnode : (Form.headed "::" (symbols.map .symbol)).toNode top = .ok n) (hkeeps : n.KeepsNames) (top' : Bool) :
    ∃ g, Match (.plain top') n g := by
  rw [toNode_headed rfl, Form.toSpecialNode] at hnode
  dsimp only at hnode
  split at hnode
  · cases hnode
  next hfull =>
    simp only [bind_eq_ok, pure_eq_ok] at hnode
    obtain ⟨operands, hoperands, rfl⟩ := hnode
    obtain ⟨hlength, hsymbol⟩ := fromSymbol_of_toNodes hsymbols hoperands
    have hne : operands ≠ [] := ne_nil_of_length_eq hlength (by simpa using hfull)
    have hspells : ∀ n ∈ operands, n.KeepsNames → ∃ g, Spells (.plain false) n g := fun n hn hkept =>
      exists_spells_fromSymbol (hsymbol n hn) hkept
    exact (exists_ascribed hsymbol hne hspells hkeeps).imp fun g hg => hg.converts

/-- A list of symbols behind a point or behind `::` that has a node is written so that the program is the node again,
if the names of the node keep apart. -/
theorem joined_symbols_round_trip {f : Form} {head : Text} {symbols : List Text}
    (hhead : head = ".".toList ∨ head = "::".toList) (hform : f.bare = .headed head (symbols.map .symbol))
    (hsymbols : ∀ s ∈ symbols, (Atom.symbol s).Readable) (hnode : f.toNode top = .ok n) (hkeeps : n.KeepsNames)
    (top' : Bool) : ∃ t, n.written top' = .ok t ∧ program t = .ok [n] := by
  have hsame : f.bare.bare = f.bare := by rw [bare_eq_mapSpan f, bare_mapSpan, bare_eq_mapSpan]
  have hbare := toNode_of_bare_eq hsame.symm hnode
  rw [hform] at hbare
  obtain ⟨g, hg⟩ : ∃ g, Match (.plain top') n g := by
    rcases hhead with rfl | rfl
    · match symbols with
      | [] => cases hbare
      | [_] => cases hbare
      | [b, s] => exact exists_match_access (hsymbols b (by simp)) (hsymbols s (by simp)) hbare hkeeps top'
      | _ :: _ :: _ :: _ => cases hbare
    · exact exists_match_ascription hsymbols hbare hkeeps top'
  refine ⟨g.text, ?_, program_text hg⟩
  rw [Node.written, hg.toForm]
  rfl

end

/-- Fields of a name with its type. -/
def sampleFields : Node :=
  .dotAccess (.dotAccess (.ascription [.identifier "x", .identifier "T"]) "a") "b"

lemma keepsNames_sampleFields : sampleFields.KeepsNames := by
  have hwritten : ∀ name ∈ (["x", "T", "a"] : List Text), unescapeSymbol name = name := by
    intro name hname
    refine unescapeSymbol_of_not_mem ?_
    revert name
    decide
  have hjoin : Node.NamesJoin ["x", "T"] := by
    refine ⟨fun name hname => ?_, ⟨_, List.mem_cons_self, by decide⟩, ?_⟩
    · have hmem : name ∈ (["x", "T", "a"] : List Text) := List.mem_append_left ["a".toList] hname
      rw [hwritten name hmem]
      revert name
      decide
    · rintro name ⟨⟩
      rw [hwritten _ List.mem_cons_self]
      decide
  have hstart : startsNumber (unescapeSymbol "a") = false := by
    rw [hwritten _ (by simp)]
    decide
  have hnames : (Node.ascription (["x".toList, "T"].map .identifier)).KeepsNames := .typeNames le_rfl hjoin
  exact .fields rfl (.field hnames hstart)

theorem joined_symbols_round_trip_fields :
    (∀ s ∈ (["x::T", "a/b"] : List Text), (Atom.symbol s).Readable) ∧
      (Form.headed "." [.symbol "x::T", .symbol "a/b"]).toNode true = .ok sampleFields ∧ sampleFields.KeepsNames ∧
      ∃ t, sampleFields.written true = .ok t ∧ program t = .ok [sampleFields] := by
  have hreadable : ∀ s ∈ (["x::T", "a/b"] : List Text), (Atom.symbol s).Readable := fun s hs =>
    readable_word (by revert s; decide)
  have hnode : (Form.headed "." [.symbol "x::T", .symbol "a/b"]).toNode true = .ok sampleFields := rfl
  have hform : (Form.headed "." [.symbol "x::T", .symbol "a/b"]).bare =
      .headed "." ((["x::T", "a/b"] : List Text).map .symbol) := rfl
  exact ⟨hreadable, hnode, keepsNames_sampleFields,
    joined_symbols_round_trip (.inl rfl) hform hreadable hnode keepsNames_sampleFields true⟩

/-- The name of no value in front of a field is written as nil, and a division in front of a field is written to what is
no symbol. -/
theorem joined_symbols_misread :
    ((Form.headed "." [.symbol "nothing.a", .symbol "b"]).Readable ∧
      (Form.headed "." [.symbol "nothing.a", .symbol "b"]).toNode true =
        .ok (.dotAccess (.dotAccess (.identifier "nothing") "a") "b") ∧
      (Node.dotAccess (.dotAccess (.identifier "nothing") "a") "b").written true = .ok "(. nil a.b)".toList ∧
      program "(. nil a.b)".toList = .ok [.dotAccess (.dotAccess (.literal .nothing) "a") "b"]) ∧
    (Form.headed "." [.symbol "/", .symbol "a"]).Readable ∧
      (Form.headed "." [.symbol "/", .symbol "a"]).toNode true = .ok (.dotAccess (.identifier "/") "a") ∧
      (Node.dotAccess (.identifier "/") "a").written true = .ok "/.a".toList ∧
      ∃ fault, program "/.a".toList = .error fault := by
  have hreadable : ∀ s ∈ (["nothing.a", "a.b", "/", "a", "b"] : List Text), (Form.symbol s).Readable := fun s hs =>
    readable_word (by revert s; decide)
  have hwritten : ∀ s ∈ (["a", "b"] : List Text), unescapeSymbol s = s := by
    intro s hs
    refine unescapeSymbol_of_not_mem ?_
    revert s
    decide
  have hpair {s t : Text} (hs : (Form.symbol s).Readable) (ht : (Form.symbol t).Readable) :
      (Form.headed "." [.symbol s, .symbol t]).Readable :=
    readable_behind (by decide) (List.forall_mem_cons.2 ⟨hs, List.forall_mem_singleton.2 ht⟩)
  refine ⟨⟨hpair (hreadable _ (by simp)) (hreadable _ (by simp)), rfl, ?_, ?_⟩,
    hpair (hreadable _ (by simp)) (hreadable _ (by simp)), rfl, ?_, ?_⟩
  · have hform : (Node.dotAccess (.dotAccess (.identifier "nothing") "a") "b").toForm true =
        .ok (.headed "." [.nil, .symbol "a.b"]) := by
      rw [Node.toForm, Node.toForm, Node.toForm, hwritten "a" (by simp), hwritten "b" (by simp)]
      rfl
    rw [Node.written, hform]
    rfl
  · exact program_formText (f := .headed "." [.nil, .symbol "a.b"]) rfl
      (readable_behind (by decide) (List.forall_mem_cons.2
        ⟨trivial, List.forall_mem_singleton.2 (hreadable _ (by simp))⟩))
  · have hform : (Node.dotAccess (.identifier "/") "a").toForm true = .ok (.symbol "/.a") := by
      rw [Node.toForm, Node.toForm, nameForm_of_ne (by decide), hwritten "a" (by simp),
        unescapeSymbol_operator (by decide)]
      rfl
    rw [Node.written, hform]
    rfl
  · have htokens : tokens "/.a" = .failed (.located (.invalidToken "/.a" []) ⟨⟨1, 1, 0⟩, ⟨1, 4, 3⟩⟩) := by
      rw [tokens, tokensFrom_eq]
      rfl
    refine ⟨.located (.invalidToken "/.a" []) ⟨⟨1, 1, 0⟩, ⟨1, 4, 3⟩⟩, ?_⟩
    rw [program, forms, htokens, readForms_eq_run]
    rfl

end Bilisp
