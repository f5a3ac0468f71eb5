import Bilisp.Proofs.Conversions

/-!
# The spelling of a node

Which form spells which node is a relation of its own, defined along the kinds of nodes (`Spells`). A form that
spells a node is written for it and read as it, and a source can write the form (`Spells.converts`).
-/

namespace Bilisp

/-- The form spells the node at the place. Forms here carry no spans. -/
inductive Spells : Place → Node → Form → Prop
  | literal {p : Place} {value : Literal} (hreadable : value.form.Readable) :
    Spells p (.literal value) value.form
  | symbol {p : Place} {n : Node} {s : Text} (hwritten : n.formAt p = .ok (.symbol s))
    (hnode : symbolNode? s = some n) (hreadable : (Atom.symbol s).Readable) : Spells p n (.symbol s)
  | keyword {top : Bool} {name key : Text} (hescape : escapeSymbol key = name)
    (hform : keywordForm name = .atom (.keyword key) none) (hreadable : (Atom.keyword key).Readable) :
    Spells (.plain top) (.quote (.identifier name)) (.atom (.keyword key) none)
  | vector {p : Place} {pairs : List (Node × Form)} (hitems : ∀ q ∈ pairs, Spells p.inner q.1 q.2) :
    Spells p (.vector (pairs.map Prod.fst)) (.vector (pairs.map Prod.snd))
  | dictionary {p : Place} {pairs : List (Node × Form)} (hentries : ∀ q ∈ pairs, Spells p.inner q.1 q.2)
    (heven : pairs.length % 2 = 0) :
    Spells p (.dictionary (pairs.map Prod.fst)) (.compound .map (pairs.map Prod.snd) none)
  | setOf {p : Place} {pairs : List (Node × Form)} (hitems : ∀ q ∈ pairs, Spells p.inner q.1 q.2) :
    Spells p (.setOf (pairs.map Prod.fst)) (.compound .set (pairs.map Prod.snd) none)
  | emptyTuple {top : Bool} : Spells (.plain top) (.tuple []) (.list [])
  | quotedTuple {pairs : List (Node × Form)} (hitems : ∀ q ∈ pairs, Spells .quoted q.1 q.2) :
    Spells .quoted (.tuple (pairs.map Prod.fst)) (.headed "tuple" (pairs.map Prod.snd))
  | raw {head symbol : Text} {pairs : List (Node × Form)} (hescape : escapeSymbol symbol = head)
    (hform : nameForm head = .symbol symbol) (hreadable : (Atom.symbol symbol).Readable)
    (hquote : symbol ≠ "quote".toList) (htuple : symbol ≠ "tuple".toList)
    (hargs : ∀ q ∈ pairs, Spells .quoted q.1 q.2) :
    Spells .quoted (.raw head (pairs.map Prod.fst)) (.headed symbol (pairs.map Prod.snd))
  | listing {top : Bool} (kind : Listing) {pairs : List (Node × Form)}
    (hparts : ∀ q ∈ pairs, Spells (.plain false) q.1 q.2) (hne : pairs ≠ [] ∨ kind.MayBeEmpty) :
    Spells (.plain top) (kind.node (pairs.map Prod.fst)) (.headed kind.name (pairs.map Prod.snd))
  | ascription {top : Bool} {pairs : List (Node × Form)} (hparts : ∀ q ∈ pairs, Spells (.plain false) q.1 q.2)
    (hne : pairs ≠ []) (hsymbol : ascriptionSymbol? (pairs.map Prod.fst) (pairs.map Prod.snd) = none) :
    Spells (.plain top) (.ascription (pairs.map Prod.fst)) (.headed "::" (pairs.map Prod.snd))
  | field {top : Bool} {base : Node} {f : Form} {name segment : Text} (hbase : Spells (.plain false) base f)
    (hpair : NamePair name segment) (hform : fieldForm f segment = .headed "." [f, .symbol segment])
    (hreadable : (Atom.symbol segment).Readable) :
    Spells (.plain top) (.dotAccess base name) (.headed "." [f, .symbol segment])
  | fields {top : Bool} {base : Node} {f : Form} {name segment last : Text}
    (hbase : Spells (.plain false) base (.headed "." [f, .symbol last])) (hpair : NamePair name segment)
    (hreadable : (Atom.symbol (last ++ "." ++ segment)).Readable) :
    Spells (.plain top) (.dotAccess base name) (.headed "." [f, .symbol (last ++ "." ++ segment)])
  | quote {top : Bool} {n : Node} {f : Form} (hname : ∀ name, n ≠ .identifier name)
    (hvalue : Spells (.plain false) n f) : Spells (.plain top) (.quote n) (.headed "quote" [f])
  | interpolate {top : Bool} {n : Node} {f : Form} (hvalue : Spells (.plain false) n f) :
    Spells (.plain top) (.interpolate n) (.headed "unquote" [f])
  | ifThen {top : Bool} {n m : Node} {f g : Form} (hcondition : Spells (.plain false) n f)
    (hthen : Spells (.plain false) m g) : Spells (.plain top) (.ifThen n m) (.headed "if" [f, g])
  | ifElse {top : Bool} {n m k : Node} {f g e : Form} (hcondition : Spells (.plain false) n f)
    (hthen : Spells (.plain false) m g) (helse : Spells (.plain false) k e) :
    Spells (.plain top) (.ifElse n m k) (.headed "if" [f, g, e])
  | block {top : Bool} {pairs : List (Node × Form)} (hbody : ∀ q ∈ pairs, Spells (.plain false) q.1 q.2)
    (hlength : 2 ≤ pairs.length) :
    Spells (.plain top) (.block (pairs.map Prod.fst)) (.headed "do" (pairs.map Prod.snd))
  | letBlock {top : Bool} {pairs : List (Node × Form)} {body : Node} {f : Form}
    (hbindings : ∀ q ∈ pairs, Spells (.plain false) q.1 q.2) (heven : pairs.length % 2 = 0)
    (hbody : Spells (.plain false) body f) :
    Spells (.plain top) (.letBlock (assignments (pairs.map Prod.fst)) body)
      (.headed "let" [.vector (pairs.map Prod.snd), f])
  | lambda {top : Bool} {pairs : List (Node × Form)} {body : Node} {f : Form}
    (hparams : ∀ q ∈ pairs, Spells (.plain false) q.1 q.2) (hbody : Spells (.plain false) body f) :
    Spells (.plain top) (.lambda (pairs.map Prod.fst) body) (.headed "fn" [.vector (pairs.map Prod.snd), f])
  | function {top : Bool} {name : Node} {nameForm : Form} {pairs statements : List (Node × Form)}
    (hname : Spells (.plain false) name nameForm) (hparams : ∀ q ∈ pairs, Spells (.plain false) q.1 q.2)
    (hstatements : ∀ q ∈ statements, Spells (.plain false) q.1 q.2) (hne : statements ≠ [])
    (hsingle : ∀ q, statements = [q] → splicedBody q.2 = [q.2])
    (hvector : top = true ∨ ∀ items span, nameForm ≠ .compound .vector items span) :
    Spells (.plain top) (.function name (pairs.map Prod.fst) (.sequence (statements.map Prod.fst)))
      (.headed (if top then "defn" else "fn")
        (nameForm :: .vector (pairs.map Prod.snd) :: statements.map Prod.snd))
  | assignment {target value : Node} {f g : Form} (htarget : Spells (.plain false) target f)
    (hvalue : Spells (.plain false) value g) :
    Spells (.plain true) (.assignment target value) (.headed "def" [f, g])
  | subscript {top : Bool} {collection : Node} {f : Form} {pairs : List (Node × Form)}
    (hcollection : Spells (.plain false) collection f) (hindices : ∀ q ∈ pairs, Spells (.plain false) q.1 q.2) :
    Spells (.plain top) (.subscript collection (pairs.map Prod.fst)) (.headed "aget" (f :: pairs.map Prod.snd))
  | openRange {top : Bool} {start : Node} {f : Form} (hstart : Spells (.plain false) start f) :
    Spells (.plain top) (.range [start, .identifier "end"]) (.headed ":" [f])
  | range {top : Bool} {pairs : List (Node × Form)} (hparts : ∀ q ∈ pairs, Spells (.plain false) q.1 q.2)
    (hlength : pairs.length = 2 ∨ pairs.length = 3)
    (hopen : ∀ start, pairs.map Prod.fst ≠ [start, .identifier "end"]) :
    Spells (.plain top) (.range (pairs.map Prod.fst)) (.headed ":" (pairs.map Prod.snd))
  | moduleBlock {top : Bool} {name : Node} {f : Form} {pairs : List (Node × Form)}
    (hname : Spells (.plain false) name f) (hbody : ∀ q ∈ pairs, Spells (.plain true) q.1 q.2) :
    Spells (.plain top) (.moduleBlock name (pairs.map Prod.fst)) (.headed "module" (f :: pairs.map Prod.snd))
  | macroCall {top : Bool} {name symbol : Text} {pairs : List (Node × Form)}
    (hescape : escapeSymbol symbol = name) (hform : nameForm name = .symbol symbol)
    (hreadable : (Atom.symbol symbol).Readable) (hhead : symbol.head? = some '@') (hlength : 1 < symbol.length)
    (hargs : ∀ q ∈ pairs, Spells .quoted q.1 q.2) :
    Spells (.plain top) (.macroCall name (pairs.map Prod.fst)) (.headed symbol (pairs.map Prod.snd))
  | call {top : Bool} {callee : Node} {f : Form} {pairs : List (Node × Form)}
    (hcallee : Spells (.plain false) callee f) (hleads : f.LeadsCall)
    (hargs : ∀ q ∈ pairs, Spells (.plain false) q.1 q.2) (hratio : ratio? callee (pairs.map Prod.fst) = none)
    (hshape : literalShape? callee (pairs.map Prod.fst) = none) :
    Spells (.plain top) (.call callee (pairs.map Prod.fst)) (.list (f :: pairs.map Prod.snd))

namespace Spells

variable {p : Place} {n : Node} {f : Form}

/-- A form that spells a node is written for it and read as it. -/
theorem converts (h : Spells p n f) : Match p n f := by
  induction h with
  | literal hreadable => exact .literal hreadable
  | symbol hwritten hnode hreadable => exact .symbol hwritten hnode hreadable
  | keyword hescape hform hreadable => exact .keyword hescape hform hreadable
  | vector hitems ih => exact .vector ih
  | dictionary hentries heven ih => exact .dictionary ih heven
  | setOf hitems ih => exact .setOf ih
  | emptyTuple => exact .emptyTuple
  | quotedTuple hitems ih => exact .quotedTuple ih
  | raw hescape hform hreadable hquote htuple hargs ih =>
    exact .raw hescape hform hreadable hquote htuple ih
  | listing kind hparts hne ih => exact .listing ih kind hne
  | ascription hparts hne hsymbol ih => exact .ascription ih hne hsymbol
  | field hbase hpair hform hreadable ih => exact .field ih hpair hform hreadable
  | fields hbase hpair hreadable ih => exact .fields ih hpair hreadable
  | quote hname hvalue ih => exact .quote hname ih
  | interpolate hvalue ih => exact .interpolate ih
  | ifThen hcondition hthen ihCondition ihThen => exact .ifThen ihCondition ihThen
  | ifElse hcondition hthen helse ihCondition ihThen ihElse => exact .ifElse ihCondition ihThen ihElse
  | block hbody hlength ih => exact .block ih hlength
  | letBlock hbindings heven hbody ihBindings ihBody => exact .letBlock ihBindings heven ihBody
  | lambda hparams hbody ihParams ihBody => exact .lambda ihParams ihBody
  | function hname hparams hstatements hne hsingle hvector ihName ihParams ihStatements =>
    exact .function ihParams ihName ihStatements hne hsingle hvector
  | assignment htarget hvalue ihTarget ihValue => exact .assignment ihTarget ihValue
  | subscript hcollection hindices ihCollection ihIndices => exact .subscript ihIndices ihCollection
  | openRange hstart ih => exact .openRange ih
  | range hparts hlength hopen ih => exact .range ih hlength hopen
  | moduleBlock hname hbody ihName ihBody => exact .moduleBlock ihName ihBody
  | macroCall hescape hform hreadable hhead hlength hargs ih =>
    exact .macroCall hescape hform hreadable hhead hlength ih
  | call hcallee hleads hargs hratio hshape ihCallee ihArgs => exact .call ihCallee hleads ihArgs hratio hshape

/-! ## Symbols -/

/-- An operator is its own symbol everywhere. -/
lemma operator {name : Text} (hop : isOperator name = true) (htoken : isSymbolToken name = true) :
    Spells p (.identifier name) (.symbol name) := by
  have hne : name ≠ Node.nothingName := by
    rintro rfl
    cases hop
  have hform : nameForm name = .symbol name := by rw [nameForm, if_neg hne, unescapeSymbol_operator hop]
  have hreadable : (Atom.symbol name).Readable := by
    refine ⟨lexemes?_eq_symbol_iff.2 htoken, ?_, ?_, ?_⟩
    all_goals
      rintro rfl
      cases hop
  refine .symbol ?_ (by rw [symbolNode?, if_pos hop]) hreadable
  cases p with
  | plain top =>
    rw [Node.formAt, Node.toForm, hform]
    rfl
  | quoted =>
    rw [Node.formAt, Node.toQuotedForm, hform]
    rfl

lemma quotedName {host segment : Text} (hpair : NamePair host segment) (hhost : host ≠ Node.nothingName)
    (hreadable : (Atom.symbol segment).Readable) : Spells .quoted (.identifier host) (.symbol segment) := by
  refine .symbol ?_ (PathPair.name hpair hhost).symbolNode? hreadable
  rw [Node.formAt, Node.toQuotedForm, nameForm, if_neg hhost, hpair.unescape]
  rfl

section

variable {top : Bool}

lemma path {s : Text} (hpath : PathPair n s) (hreadable : (Atom.symbol s).Readable) :
    Spells (.plain top) n (.symbol s) := .symbol (hpath.toForm top) hpath.symbolNode? hreadable

/-- The name of a type alone, unless the colons make an operator of it. -/
lemma typeName {host segment : Text} (hpair : NamePair host segment) (hoperator : isOperator segment = false) :
    Spells (.plain top) (.ascription [.identifier host]) (.symbol ("::" ++ segment)) := by
  have hreadable : (Atom.symbol ("::" ++ segment)).Readable :=
    ⟨lexemes?_eq_symbol_iff.2 (isSymbolToken_typeName hpair.isSegment), nofun, nofun, nofun⟩
  refine .symbol ?_ (symbolNode?_typeName hpair hoperator) hreadable
  rw [Node.formAt, toForm_typeName, hpair.unescape]

/-- Names that are not all operators, joined by colons. -/
lemma typeNames {names : List (Text × Text)} (hpairs : ∀ q ∈ names, NamePair q.1 q.2)
    (hlength : 2 ≤ names.length) (hoperator : ∃ q ∈ names, isOperator q.2 = false)
    (hreadable : (Atom.symbol (Text.join "::" (names.map Prod.snd))).Readable) :
    Spells (.plain top) (.ascription (names.map fun q => .identifier q.1))
      (.symbol (Text.join "::" (names.map Prod.snd))) := by
  have hunescape : (names.map Prod.fst).map unescapeSymbol = names.map Prod.snd := by
    rw [List.map_map]
    exact List.map_congr_left fun q hq => (hpairs q hq).unescape
  have hwritten := toForm_typeNames (names.map Prod.fst) (by simpa using hlength) top
  rw [hunescape, List.map_map] at hwritten
  refine .symbol hwritten ?_ hreadable
  have hparts : ∀ q ∈ names.map (fun q => (Node.identifier q.1, q.2)), TypePart q.1 q.2 := by
    intro q hq
    obtain ⟨r, hr, rfl⟩ := List.mem_map.1 hq
    exact (hpairs r hr).typePart
  obtain ⟨q, hq, hop⟩ := hoperator
  have hnode := symbolNode?_join hparts (by simpa using hlength) ⟨_, List.mem_map_of_mem hq, hop⟩
  rwa [List.map_map, List.map_map] at hnode

/-- A path in front of the name of its type, unless both are made of operators. -/
lemma typedJoin {base : Node} {field s host segment : Text} (hpath : JoinsPath (.dotAccess base field) s)
    (hpair : NamePair host segment) (hoperator : isOperator s = false ∨ isOperator segment = false)
    (hreadable : (Atom.symbol (s ++ "::" ++ segment)).Readable) :
    Spells (.plain top) (.ascription [.dotAccess base field, .identifier host])
      (.symbol (s ++ "::" ++ segment)) := by
  refine .symbol ?_ ?_ hreadable
  · rw [Node.formAt, toForm_typedPath hpath, hpair.unescape]
  · have hparts : ∀ q ∈ [(Node.dotAccess base field, s), (Node.identifier host, segment)], TypePart q.1 q.2 := by
      simp only [List.mem_cons, List.not_mem_nil, or_false]
      rintro q (rfl | rfl)
      · exact hpath.typePart
      · exact hpair.typePart
    have hnode := symbolNode?_join hparts le_rfl (by simpa using hoperator)
    rwa [List.map_cons, List.map_cons, List.map_nil, join_cons_cons, join_singleton, ← List.append_assoc] at hnode

lemma typedPath {base : Node} {field s host segment : Text} (hpath : PathPair (.dotAccess base field) s)
    (hpair : NamePair host segment) (hreadable : (Atom.symbol (s ++ "::" ++ segment)).Readable) :
    Spells (.plain top) (.ascription [.dotAccess base field, .identifier host])
      (.symbol (s ++ "::" ++ segment)) := by
  have hoperator : isOperator s = false := by
    rw [← Bool.not_eq_true]
    intro hop
    cases hpath.eq_identifier hop
  exact typedJoin hpath.joins hpair (.inl hoperator) hreadable

end

/-! ## Which node a form spells -/

section

variable {top : Bool}

/-- A symbol spells a path or an ascription. -/
lemma symbol_cases {s : Text} {span : Option Span} (h : Spells (.plain top) n (.atom (.symbol s) span)) :
    n.isPath = true ∨ (hasAscription s = true ∧ ∃ operands, n = .ascription operands) := by
  generalize hf : Form.atom (.symbol s) span = f at h
  cases h with
  | @literal _ value hreadable => cases value <;> cases hf
  | symbol hwritten hnode hreadable =>
    cases hf
    exact symbolNode?_cases hnode
  | _ => cases hf

/-- A vector spells a vector. -/
lemma vector_cases {elements : List Form} {span : Option Span}
    (h : Spells (.plain top) n (.compound .vector elements span)) : ∃ items, n = .vector items := by
  generalize hf : Form.compound .vector elements span = f at h
  cases h with
  | @literal _ value hreadable => cases value <;> cases hf
  | vector hitems => exact ⟨_, rfl⟩
  | _ => cases hf

/-- A list that `do` leads spells the block of what the other elements spell. -/
lemma do_cases {place span : Option Span} {body : List Form}
    (h : Spells (.plain top) n (.compound .list (.atom (.symbol "do") place :: body) span)) :
    ∃ pairs : List (Node × Form), n = .block (pairs.map Prod.fst) ∧ pairs.map Prod.snd = body ∧ 2 ≤ pairs.length ∧
      ∀ q ∈ pairs, Spells (.plain false) q.1 q.2 := by
  generalize hf : Form.compound .list (.atom (.symbol "do") place :: body) span = f at h
  cases h with
  | @literal _ value hreadable => cases value <;> cases hf
  | @block _ pairs hbody hlength =>
    obtain ⟨-, helements, -⟩ := Form.compound.inj hf
    exact ⟨pairs, rfl, (List.cons.inj helements).2.symm, hlength, hbody⟩
  | listing kind hparts hne => cases kind <;> cases hf
  | function => cases top <;> cases hf
  | macroCall hescape hform hreadable hhead =>
    cases hf
    cases hhead
  | call hcallee hleads =>
    cases hf
    cases hleads.1
  | _ => cases hf

/-- A list that a point leads spells a field. -/
lemma point_cases {place span : Option Span} {rest : List Form}
    (h : Spells (.plain top) n (.compound .list (.atom (.symbol ".") place :: rest) span)) :
    ∃ base name, n = .dotAccess base name := by
  generalize hf : Form.compound .list (.atom (.symbol ".") place :: rest) span = f at h
  cases h with
  | @literal _ value hreadable => cases value <;> cases hf
  | field => exact ⟨_, _, rfl⟩
  | fields => exact ⟨_, _, rfl⟩
  | listing kind hparts hne => cases kind <;> cases hf
  | function => cases top <;> cases hf
  | macroCall hescape hform hreadable hhead =>
    obtain ⟨-, hf, -⟩ := Form.compound.inj hf
    cases (List.cons.inj hf).1
    cases hhead
  | call hcallee hleads =>
    obtain ⟨-, hf, -⟩ := Form.compound.inj hf
    rw [← (List.cons.inj hf).1] at hleads
    cases hleads.1
  | _ => cases hf

/-- A field is spelled by a symbol, or by a list that a path of fields ends. -/
lemma dotAccess_cases {base : Node} {name : Text} (h : Spells (.plain top) (.dotAccess base name) f) :
    (∃ s, f = .symbol s) ∨
      ∃ inner last, f = .headed "." [inner, .symbol last] ∧ last.all isAtomChar = true ∧
        continuesPath true true last = true := by
  generalize hn : Node.dotAccess base name = n at h
  generalize hp : Place.plain top = p at h
  induction h generalizing base name top with
  | symbol => exact .inl ⟨_, rfl⟩
  | @field _ _ f _ segment hbase hpair =>
    refine .inr ⟨f, segment, rfl, all_isAtomChar_segment hpair.isSegment, ?_⟩
    exact continuesPath_segment true hpair.isSegment
  | @fields _ base' f _ segment last hbase hpair hreadable ih =>
    refine .inr ⟨f, last ++ "." ++ segment, rfl, ?_⟩
    obtain ⟨base'', name'', rfl⟩ := point_cases hbase
    rcases ih rfl rfl with ⟨s, heq⟩ | ⟨inner', last', heq, hatoms, hpath⟩
    · cases heq
    · cases heq
      have hpoint : isAtomChar '.' = true := by decide
      rw [List.append_assoc]
      refine ⟨?_, continuesPath_append_segment hpath (point_mem_separators _) hpair.isSegment⟩
      rw [List.all_append, List.all_append, hatoms, all_isAtomChar_segment hpair.isSegment]
      simp [hpoint]
  | listing kind => cases kind <;> cases hn
  | _ => cases hn

/-- A block is spelled by its statements behind `do`. -/
lemma block_cases {nodes : List Node} (h : Spells (.plain top) (.block nodes) f) :
    ∃ pairs : List (Node × Form), pairs.map Prod.fst = nodes ∧ 2 ≤ pairs.length ∧
      ∀ q ∈ pairs, Spells (.plain false) q.1 q.2 := by
  generalize hn : Node.block nodes = n at h
  cases h with
  | symbol hwritten hnode =>
    subst hn
    rcases symbolNode?_cases hnode with hpath | ⟨-, operands, heq⟩
    · cases hpath
    · cases heq
  | @block _ pairs hbody hlength =>
    cases hn
    exact ⟨pairs, rfl, hlength, hbody⟩
  | listing kind => cases kind <;> cases hn
  | _ => cases hn

end

end Spells

end Bilisp
