import Bilisp.Proofs.CanonicalNodes
import Bilisp.Proofs.WrittenPrograms

/-!
# Canonical nodes are read back

Every canonical node has a form that spells it (`hasSpelling`), so its written form is a source of which the
program is the node again (`written_hasSpelling`).
-/

namespace Bilisp

lemma exists_pairs {p : Place} {nodes : List Node} (h : ∀ n ∈ nodes, ∃ f, Spells p n f) :
    ∃ pairs : List (Node × Form), pairs.map Prod.fst = nodes ∧ ∀ q ∈ pairs, Spells p q.1 q.2 := by
  induction nodes with
  | nil => exact ⟨[], rfl, fun q hq => absurd hq List.not_mem_nil⟩
  | cons n rest ih =>
    obtain ⟨f, hf⟩ := h n List.mem_cons_self
    obtain ⟨pairs, hpairs, hspells⟩ := ih fun m hm => h m (List.mem_cons_of_mem _ hm)
    refine ⟨(n, f) :: pairs, by rw [List.map_cons, hpairs], ?_⟩
    rintro q (_ | ⟨_, hq⟩)
    · exact hf
    · exact hspells q hq

lemma length_pairs {pairs : List (Node × Form)} {nodes : List Node} (h : pairs.map Prod.fst = nodes) :
    pairs.length = nodes.length := by rw [← h, List.length_map]

/-! ## Quoted mode -/

lemma readable_form {value : Literal} (h : ∀ number, value = .number number → number.IsRegular) :
    value.form.Readable := by
  cases value with
  | number number => exact h number rfl
  | character c => rfl
  | nothing => trivial
  | boolean truth => trivial
  | string text => trivial

lemma isSymbolToken_slash {name : Text} (h : name ∈ slashNames) :
    isOperator name = true ∧ isSymbolToken name = true := by
  have hall : slashNames.all (fun name => isOperator name && isSymbolToken name) = true := by decide
  simpa using List.all_eq_true.1 hall name h

lemma isSymbolToken_plainOperator {name : Text} (h : isPlainOperator name = true) : isSymbolToken name = true := by
  have hpair := namePair_plainOperator h
  exact isSymbolToken_of_isPath (all_isAtomChar_segment hpair.isSegment)
    (continuesPath_segment true hpair.isSegment)
    (startsNumber_of_not_digits fun c hc => (plainOperator_chars h c hc).2)

lemma spells_operator {p : Place} {name : Text} (h : isPlainOperator name = true ∨ name ∈ slashNames) :
    Spells p (.identifier name) (.symbol name) := by
  rcases h with h | h
  · exact .operator (isOperator_of_isPlainOperator h) (isSymbolToken_plainOperator h)
  · exact .operator (isSymbolToken_slash h).1 (isSymbolToken_slash h).2

theorem exists_quotedSpelling {n : Node} (h : n.Quotable) : ∃ f, Spells .quoted n f := by
  induction h with
  | literal hvalue => exact ⟨_, .literal (readable_form hvalue)⟩
  | name hname =>
    obtain ⟨segment, hpair, hstart, -, -⟩ := exists_segment (.inl hname.1)
    exact ⟨_, .quotedName hpair hname.2.2 (readable_segment hpair hstart hname.2.1)⟩
  | operator hname => exact ⟨_, spells_operator hname⟩
  | vector hitems ih =>
    obtain ⟨pairs, rfl, hpairs⟩ := exists_pairs ih
    exact ⟨_, .vector hpairs⟩
  | tuple hitems ih =>
    obtain ⟨pairs, rfl, hpairs⟩ := exists_pairs ih
    exact ⟨_, .quotedTuple hpairs⟩
  | dictionary hentries heven ih =>
    obtain ⟨pairs, rfl, hpairs⟩ := exists_pairs ih
    rw [List.length_map] at heven
    exact ⟨_, .dictionary hpairs heven⟩
  | setOf hitems ih =>
    obtain ⟨pairs, rfl, hpairs⟩ := exists_pairs ih
    exact ⟨_, .setOf hpairs⟩
  | @raw head args hhead hargs ih =>
    obtain ⟨pairs, rfl, hpairs⟩ := exists_pairs ih
    rcases hhead with ⟨⟨hname, hliteral, hnothing⟩, hquote, htuple⟩ | ⟨hop, htoken⟩
    · obtain ⟨segment, hpair, hstart, -, -⟩ := exists_segment (.inl hname)
      refine ⟨_, .raw hpair.escape ?_ (readable_segment hpair hstart hliteral) ?_ ?_ hpairs⟩
      · rw [nameForm, if_neg hnothing, hpair.unescape]
      · rintro rfl
        exact hquote hpair.escape.symm
      · rintro rfl
        exact htuple hpair.escape.symm
    · have hspells : Spells .quoted (.identifier head) (.symbol head) := .operator hop htoken
      refine ⟨_, .raw (escapeSymbol_operator hop) ?_ hspells.converts.readable ?_ ?_ hpairs⟩
      · exact Except.ok.inj hspells.converts.written
      · rintro rfl
        cases hop
      · rintro rfl
        cases hop

/-! ## Calls, dictionaries and sets -/

/-- The nodes that stand in the nodes of a literal of a dictionary or a set. -/
def Node.literalParts : Node → List Node
  | .call _ args => args
  | .vector items => items
  | _ => []

lemma exists_entries {args : List Node} {found : List (Node × Node)} (h : Node.entryPairs? args = some found) :
    ∃ nodes, nodes.length % 2 = 0 ∧ args = Node.entries nodes ∧
      ∀ m ∈ nodes, ∃ n ∈ args, m ∈ n.literalParts := by
  fun_induction Node.entryPairs? args generalizing found with
  | case1 => exact ⟨[], rfl, rfl, fun m hm => absurd hm List.not_mem_nil⟩
  | case2 key value rest ih =>
    obtain ⟨found', hfound, -⟩ := Option.map_eq_some_iff.1 h
    obtain ⟨nodes, heven, rfl, hparts⟩ := ih hfound
    refine ⟨key :: value :: nodes, ?_, rfl, ?_⟩
    · rw [List.length_cons, List.length_cons]
      omega
    intro m hm
    rw [List.mem_cons, List.mem_cons] at hm
    rcases hm with rfl | rfl | hm
    · exact ⟨_, List.mem_cons_self, List.mem_cons_self⟩
    · exact ⟨_, List.mem_cons_self, List.mem_cons_of_mem _ List.mem_cons_self⟩
    · obtain ⟨n, hn, hmn⟩ := hparts m hm
      exact ⟨n, List.mem_cons_of_mem _ hn, hmn⟩
  | case3 => cases h
  | case4 => cases h

/-- A call that is written as a literal makes a dictionary or a set. -/
lemma literalShape?_cases {callee : Node} {args : List Node} {shape : Shape}
    (h : literalShape? callee args = some shape) :
    (∃ nodes, nodes.length % 2 = 0 ∧ Node.call callee args = .dictionary nodes ∧
      ∀ m ∈ nodes, ∃ n ∈ args, m ∈ n.literalParts) ∨
    ∃ items, Node.call callee args = .setOf items ∧ args = [.vector items] := by
  rw [literalShape?] at h
  split at h
  next hdict =>
    left
    unfold Node.dictPairs? at hdict
    split at hdict
    next name args' heq =>
      obtain ⟨rfl, rfl⟩ := Node.call.inj heq
      split at hdict
      next hname =>
        obtain ⟨found, hfound⟩ := Option.isSome_iff_exists.1 hdict
        obtain ⟨nodes, heven, hargs, hparts⟩ := exists_entries hfound
        exact ⟨nodes, heven, by rw [hname, hargs, Node.dictionary], hparts⟩
      next => cases hdict
    next => cases hdict
  next =>
    split at h
    next hset =>
      right
      unfold Node.setItems? at hset
      split at hset
      next name items heq =>
        obtain ⟨rfl, rfl⟩ := Node.call.inj heq
        split at hset
        next hname => exact ⟨items, by rw [hname, Node.setOf], rfl⟩
        next => cases hset
      next => cases hset
    next => cases h

section

variable {top : Bool}

lemma exists_call {callee : Node} {args : List Node} {f : Form} (hcallee : Spells (.plain false) callee f)
    (hleads : f.LeadsCall) (hargs : ∀ n ∈ args, ∃ g, Spells (.plain false) n g)
    (hparts : ∀ n ∈ args, ∀ m ∈ n.literalParts, ∃ g, Spells (.plain false) m g)
    (hratio : ratio? callee args = none) :
    ∃ g, Spells (.plain top) (.call callee args) g ∧ g.LeadsCall := by
  cases hshape : literalShape? callee args with
  | none =>
    obtain ⟨pairs, rfl, hpairs⟩ := exists_pairs hargs
    exact ⟨_, .call hcallee hleads hpairs hratio hshape, trivial⟩
  | some shape =>
    rcases literalShape?_cases hshape with ⟨nodes, heven, hnode, hentries⟩ | ⟨items, hnode, rfl⟩
    · have hnodes : ∀ m ∈ nodes, ∃ g, Spells (.plain false) m g := by
        intro m hm
        obtain ⟨n, hn, hmn⟩ := hentries m hm
        exact hparts n hn m hmn
      obtain ⟨pairs, rfl, hpairs⟩ := exists_pairs hnodes
      rw [List.length_map] at heven
      rw [hnode]
      exact ⟨_, Spells.dictionary hpairs heven, ⟨⟩⟩
    · obtain ⟨pairs, rfl, hpairs⟩ := exists_pairs (hparts _ List.mem_cons_self)
      rw [hnode]
      exact ⟨_, Spells.setOf hpairs, ⟨⟩⟩

/-! ## Fields -/

/-- No special form is named by a longer text with a separator in it. -/
lemma ofName?_of_mem {s : Text} (hmem : '.' ∈ s ∨ ':' ∈ s) (hlength : 2 < s.length) :
    SpecialForm.ofName? s = none := by
  have hnames : ∀ name ∈ specialForms.map Prod.fst, '.' ∈ name ∨ ':' ∈ name → name.length ≤ 2 := by decide
  rw [SpecialForm.ofName?, Text.assoc?, Option.map_eq_none_iff, List.find?_eq_none]
  intro entry hentry heq
  rw [beq_iff_eq] at heq
  subst heq
  have := hnames _ (List.mem_map_of_mem hentry) hmem
  omega

lemma PathSpelling.leadsCall {base : Node} {name s : Text} (h : PathSpelling (.dotAccess base name) s) :
    (Form.symbol s).LeadsCall := by
  refine ⟨?_, fun hmacroCall => h.lead hmacroCall.1⟩
  cases h.pair with
  | @field _ s' _ segment hbase hpair hoperator =>
    have hs := List.length_pos_of_ne_nil hbase.ne_nil
    have hsegment := List.length_pos_of_ne_nil (segment_ne_nil hpair.isSegment)
    refine ofName?_of_mem (.inl (by simp)) ?_
    rw [List.length_append, List.length_cons]
    omega

/-- Whether a form is a list of a point, a form and a symbol, which a field makes longer. -/
def Form.EndsPath (f : Form) : Prop :=
  ∃ place inner last place' span,
    f = .compound .list [.atom (.symbol ".") place, inner, .atom (.symbol last) place'] span

/-- A form that is neither a symbol of names nor a list of fields stands in a list with the field. -/
lemma fieldForm_of_not_endsPath {f : Form}
    (hsymbol : ∀ s span, f = .atom (.symbol s) span → hasAscription s = true)
    (hpath : ¬f.EndsPath) (segment : Text) : fieldForm f segment = .headed "." [f, .symbol segment] := by
  unfold fieldForm
  split
  next s span => rw [if_pos (hsymbol s span rfl)]
  next head place inner last place' span =>
    split
    next hhead =>
      subst hhead
      exact absurd ⟨place, inner, last, place', span, rfl⟩ hpath
    next => rfl
  next => rfl

/-- The text of a form without a field in it goes on as a list. -/
lemma fieldForm_eq {base : Node} {f : Form} (hbase : Spells (.plain top) base f) (hpath : base.isPath = false)
    (hfield : ∀ inner name, base ≠ .dotAccess inner name) (segment : Text) :
    fieldForm f segment = .headed "." [f, .symbol segment] := by
  refine fieldForm_of_not_endsPath (fun s span heq => ?_) ?_ segment
  · subst heq
    rcases hbase.symbol_cases with hpath' | ⟨hmark, -⟩
    · rw [hpath'] at hpath
      cases hpath
    · exact hmark
  · rintro ⟨place, inner, last, place', span, rfl⟩
    obtain ⟨base', name, rfl⟩ := hbase.point_cases
    exact hfield base' name rfl

lemma exists_field {base : Node} {name : Text} {f : Form} (hbase : base.Canonical false)
    (hf : Spells (.plain false) base f) (hname : isHostName name = true ∨ isPlainOperator name = true)
    (hslash : ∀ slash ∈ slashNames, base ≠ .identifier slash)
    (hoperators : ∀ other, base = .identifier other → isOperator other = true → isPlainOperator name = false)
    (hliteral : name ∈ literalNames → base.isPath = true ∨ ∃ inner field, base = .dotAccess inner field) :
    ∃ g, Spells (.plain top) (.dotAccess base name) g ∧ g.LeadsCall := by
  obtain ⟨segment, hpair, hstart, -, -⟩ := exists_segment hname
  cases hpath : base.isPath with
  | true =>
    obtain ⟨s, hs⟩ := exists_pathSpelling hbase hpath hslash
    obtain ⟨t, ht⟩ := hs.field hname fun hop => hoperators s (hs.pair.eq_identifier hop) hop
    exact ⟨_, .path ht.pair ht.readable, ht.leadsCall⟩
  | false =>
    by_cases hfield : ∃ inner field, base = .dotAccess inner field
    · -- The field joins the symbol at the end of the list that spells the base.
      obtain ⟨inner, field, rfl⟩ := hfield
      rcases hf.dotAccess_cases with ⟨s, rfl⟩ | ⟨g, last, rfl, hatoms, hlast⟩
      · rcases hf.symbol_cases with hpath' | ⟨-, operands, heq⟩
        · rw [hpath'] at hpath
          cases hpath
        · cases heq
      · obtain ⟨-, -, -, ⟨htoken, -⟩, -⟩ := hf.converts.readable
        have hne : last ≠ [] := by
          rintro rfl
          cases hlast
        have hlaststart := startsNumber_of_isSymbolToken hlast (lexemes?_eq_symbol_iff.1 htoken)
        have hpoint : isAtomChar '.' = true := by decide
        have htoken' : isSymbolToken (last ++ '.' :: segment) = true := by
          refine isSymbolToken_of_isPath ?_ ?_ ?_
          · rw [List.all_append, List.all_cons, hatoms, hpoint, all_isAtomChar_segment hpair.isSegment]
            rfl
          · exact continuesPath_append_segment hlast (point_mem_separators _) hpair.isSegment
          · exact (startsNumber_append hne (by decide) segment).trans hlaststart
        have hreadable : (Atom.symbol (last ++ "." ++ segment)).Readable := by
          rw [List.append_assoc]
          exact readable_of_mem htoken' (.inl (by simp))
        exact ⟨_, .fields hf hpair hreadable, ⟨⟩⟩
    · have hother : ∀ inner field, base ≠ .dotAccess inner field := by simpa using hfield
      have hname' : name ∉ literalNames := by
        intro hmem
        rcases hliteral hmem with hpath' | hfield'
        · rw [hpath] at hpath'
          cases hpath'
        · exact hfield hfield'
      exact ⟨_, .field hf hpair (fieldForm_eq hf hpath hother segment)
        (readable_segment hpair hstart hname'), ⟨⟩⟩

/-! ## Ascriptions -/

lemma identifierNames?_eq_some {operands : List Node} {names : List Text}
    (h : identifierNames? operands = some names) : operands = names.map .identifier := by
  induction operands generalizing names with
  | nil =>
    cases h
    rfl
  | cons n rest ih =>
    cases n with
    | identifier name =>
      obtain ⟨names', hnames, rfl⟩ := Option.map_eq_some_iff.1 h
      rw [ih hnames, List.map_cons]
    | _ => cases h

/-- Names that are no divisions have segments. -/
lemma exists_segments {names : List Text} (h : ∀ name ∈ names, (Node.identifier name).Canonical false)
    (hslash : ∀ name ∈ names, name ∉ slashNames) :
    ∃ pairs : List (Text × Text), pairs.map Prod.fst = names ∧
      ∀ q ∈ pairs, NamePair q.1 q.2 ∧ PathSpelling (.identifier q.1) q.2 := by
  induction names with
  | nil => exact ⟨[], rfl, fun q hq => absurd hq List.not_mem_nil⟩
  | cons name rest ih =>
    have hname : ∀ slash ∈ slashNames, Node.identifier name ≠ .identifier slash := by
      rintro slash hmem heq
      cases heq
      exact hslash name List.mem_cons_self hmem
    obtain ⟨s, hs⟩ := exists_pathSpelling (h name List.mem_cons_self) rfl hname
    obtain ⟨pairs, hpairs, hall⟩ := ih (fun n hn => h n (List.mem_cons_of_mem _ hn))
      fun n hn => hslash n (List.mem_cons_of_mem _ hn)
    refine ⟨(name, s) :: pairs, by rw [List.map_cons, hpairs], ?_⟩
    rintro q (_ | ⟨_, hq⟩)
    · cases hs.pair with
      | name hpair hhost => exact ⟨hpair, hs⟩
    · exact hall q hq

/-- Paths joined by colons can be written, unless the first one begins like a number. -/
lemma readable_join {parts : List (Node × Text)} (hparts : ∀ q ∈ parts, TypePart q.1 q.2) (hlength : 2 ≤ parts.length)
    (hstart : ∀ q ∈ parts.head?, startsNumber q.2 = false) :
    ':' ∈ Text.join "::" (parts.map Prod.snd) ∧ (Atom.symbol (Text.join "::" (parts.map Prod.snd))).Readable := by
  obtain ⟨p, q, rest, rfl⟩ := exists_cons_cons hlength
  have hmem : ':' ∈ Text.join "::" ((p :: q :: rest).map Prod.snd) := by
    rw [List.map_cons, List.map_cons, join_cons_cons]
    simp
  exact ⟨hmem, readable_of_mem (isSymbolToken_join hparts rfl (hstart p rfl)) (.inr hmem)⟩

/-- The name of a type, or names joined by colons. -/
lemma exists_namesAscription {names : List Text} (hne : names ≠ [])
    (hcanonical : ∀ name ∈ names, (Node.identifier name).Canonical false)
    (hoperator : ∃ name ∈ names, isOperator name = false) (hslash : ∀ name ∈ names, name ∉ slashNames) :
    ∃ g, Spells (.plain top) (.ascription (names.map .identifier)) g ∧ g.LeadsCall := by
  obtain ⟨pairs, rfl, hall⟩ := exists_segments hcanonical hslash
  obtain ⟨name, hname, hop⟩ := hoperator
  obtain ⟨q, hq, rfl⟩ := List.mem_map.1 hname
  match pairs with
  | [r] =>
    obtain rfl : q = r := by simpa using hq
    have hpair := (hall q hq).1
    have hlength := List.length_pos_of_ne_nil (segment_ne_nil hpair.isSegment)
    refine ⟨_, .typeName hpair (hpair.not_operator hop), ofName?_of_mem (.inr (by simp)) ?_, ?_⟩
    · rw [List.length_append]
      change 2 < 2 + _
      omega
    · rintro ⟨hhead, -⟩
      cases hhead
  | r :: t :: rest =>
    have hparts : ∀ q ∈ (r :: t :: rest).map fun q => (Node.identifier q.1, q.2), TypePart q.1 q.2 := by
      intro q hq
      obtain ⟨q', hq', rfl⟩ := List.mem_map.1 hq
      exact (hall q' hq').1.typePart
    have hr := (hall r List.mem_cons_self).2
    obtain ⟨hmem, hreadable⟩ := readable_join hparts (by simp) (by simpa using hr.start)
    rw [List.map_map] at hmem hreadable
    have hjoin : Text.join "::" ((r :: t :: rest).map Prod.snd) =
        r.2 ++ ("::" ++ Text.join "::" ((t :: rest).map Prod.snd)) := by
      rw [List.map_cons, List.map_cons, join_cons_cons, ← List.map_cons]
    have hspells : Spells (.plain top) _ _ := .typeNames (fun q hq => (hall q hq).1) (by simp)
      ⟨q, hq, (hall q hq).1.not_operator hop⟩ hreadable
    rw [List.map_map]
    refine ⟨_, hspells, ofName?_of_mem (.inr hmem) ?_, ?_⟩
    · have hlength := List.length_pos_of_ne_nil hr.pair.ne_nil
      rw [hjoin, List.length_append, List.length_append]
      change 2 < _ + (2 + _)
      omega
    · rw [hjoin, List.head?_append_of_ne_nil _ hr.pair.ne_nil]
      exact fun hmacroCall => hr.lead hmacroCall.1

/-- A path in front of the name of its type. -/
lemma exists_typedPath {base : Node} {field type : Text}
    (hoperands : ∀ n ∈ [Node.dotAccess base field, .identifier type], n.Canonical false)
    (hpath : (Node.dotAccess base field).isPath = true) (hslash : type ∉ slashNames) :
    ∃ g, Spells (.plain top) (.ascription [.dotAccess base field, .identifier type]) g ∧ g.LeadsCall := by
  obtain ⟨s, hs⟩ := exists_pathSpelling (hoperands _ List.mem_cons_self) hpath (by simp)
  have htype : ∀ slash ∈ slashNames, Node.identifier type ≠ .identifier slash := by
    rintro slash hmem heq
    cases heq
    exact hslash hmem
  obtain ⟨segment, hsegment⟩ := exists_pathSpelling (hoperands _ (by simp)) rfl htype
  have hpair : NamePair type segment := by
    cases hsegment.pair with
    | name hpair hhost => exact hpair
  have hparts : ∀ q ∈ [(Node.dotAccess base field, s), (Node.identifier type, segment)],
      TypePart q.1 q.2 := by
    simp only [List.mem_cons, List.not_mem_nil, or_false]
    rintro q (rfl | rfl)
    · exact hs.pair.joins.typePart
    · exact hpair.typePart
  have hjoin : Text.join "::" [s, segment] = s ++ "::" ++ segment := by
    rw [join_cons_cons, join_singleton, ← List.append_assoc]
  obtain ⟨hmem, hreadable⟩ := readable_join hparts le_rfl (by simpa using hs.start)
  rw [List.map_cons, List.map_cons, List.map_nil, hjoin] at hmem hreadable
  refine ⟨_, .typedPath hs.pair hpair hreadable,
    ofName?_of_mem (.inr hmem) ?_, ?_⟩
  · have hlength := List.length_pos_of_ne_nil hs.pair.ne_nil
    rw [List.length_append, List.length_append]
    change 2 < _ + 2 + _
    have hsegment' := List.length_pos_of_ne_nil (segment_ne_nil hpair.isSegment)
    omega
  · rw [List.append_assoc, List.head?_append_of_ne_nil _ hs.pair.ne_nil]
    exact fun hmacroCall => hs.lead hmacroCall.1

/-- Operands that are neither names alone nor a path with the name of its type are written as a list. -/
lemma ascriptionSymbol?_eq_none {pairs : List (Node × Form)} (hpairs : ∀ q ∈ pairs, Spells (.plain false) q.1 q.2)
    (hnames : identifierNames? (pairs.map Prod.fst) = none)
    (hpath : ∀ base field type, pairs.map Prod.fst = [.dotAccess base field, .identifier type] →
      base.isPath = false) : ascriptionSymbol? (pairs.map Prod.fst) (pairs.map Prod.snd) = none := by
  unfold ascriptionSymbol?
  rw [hnames]
  dsimp only
  split
  next head type name span rest hnodes hforms =>
    split
    next => rfl
    next hmark =>
      -- A symbol without colons in front could only spell a path.
      obtain ⟨q, r, rfl⟩ := List.length_eq_two.1 (length_pairs hnodes)
      obtain ⟨rfl, hr⟩ : q.1 = head ∧ r.1 = .identifier type := by simpa using hnodes
      have hq : q.2 = .atom (.symbol name) span := by simpa using (List.cons.inj hforms).1
      have hspells := hpairs q List.mem_cons_self
      rw [hq] at hspells
      rcases hspells.symbol_cases with hpath' | ⟨hmark', -⟩
      · cases hnode : q.1 with
        | identifier name' => simp [hnode, hr, identifierNames?] at hnames
        | dotAccess base field =>
          have hbase : base.isPath = false := hpath base field type (by simp [hnode, hr])
          rw [hnode, Node.isPath, hbase] at hpath'
          cases hpath'
        | _ =>
          rw [hnode] at hpath'
          cases hpath'
      · exact absurd hmark' hmark
  next => rfl

lemma exists_ascription {operands : List Node} (hoperands : ∀ n ∈ operands, n.Canonical false)
    (hspelled : ∀ n ∈ operands, ∃ f, Spells (.plain false) n f) (hne : operands ≠ [])
    (hnames : ∀ names : List Text, operands = names.map .identifier →
      (∃ name ∈ names, isOperator name = false) ∧ ∀ name ∈ names, name ∉ slashNames)
    (htyped : ∀ base type, operands = [base, .identifier type] → base.isPath = true → type ∉ slashNames) :
    ∃ g, Spells (.plain top) (.ascription operands) g ∧ g.LeadsCall := by
  cases hidentifiers : identifierNames? operands with
  | some names =>
    obtain rfl := identifierNames?_eq_some hidentifiers
    obtain ⟨hoperator, hslash⟩ := hnames names rfl
    refine exists_namesAscription (by simpa using hne) (fun name hname => ?_) hoperator hslash
    exact hoperands _ (List.mem_map_of_mem hname)
  | none =>
    by_cases hpath : ∃ base field type, operands = [.dotAccess base field, .identifier type] ∧
      (Node.dotAccess base field).isPath = true
    · obtain ⟨base, field, type, rfl, hpath⟩ := hpath
      exact exists_typedPath hoperands hpath (htyped _ type rfl hpath)
    · obtain ⟨pairs, rfl, hpairs⟩ := exists_pairs hspelled
      refine ⟨_, .ascription hpairs (by simpa using hne) ?_, ⟨⟩⟩
      refine ascriptionSymbol?_eq_none hpairs hidentifiers fun base field type heq => ?_
      rw [← Bool.not_eq_true]
      exact fun hbase => hpath ⟨base, field, type, heq, hbase⟩

/-! ## Functions and bindings -/

/-- A form that is no list behind `do` is the only statement of its body. -/
lemma splicedBody_of_ne {f : Form}
    (h : ∀ place forms span, f ≠ .compound .list (.atom (.symbol "do") place :: forms) span) :
    splicedBody f = [f] := by
  unfold splicedBody
  split
  next name place forms span =>
    split
    next hname =>
      subst hname
      exact absurd rfl (h place forms span)
    next => rfl
  next => rfl

lemma exists_function {name body : Node} {params : List Node} {nameForm f : Form}
    (hname : Spells (.plain false) name nameForm) (hvector : ∀ items, name ≠ .vector items)
    (hparams : ∀ n ∈ params, ∃ g, Spells (.plain false) n g) (hbody : Spells (.plain false) body f) :
    ∃ g, Spells (.plain top) (.function name params body) g ∧ g.LeadsCall := by
  obtain ⟨pairs, rfl, hpairs⟩ := exists_pairs hparams
  have hform : ∀ items span, nameForm ≠ .compound .vector items span := by
    rintro items span rfl
    obtain ⟨items', rfl⟩ := hname.vector_cases
    exact hvector items' rfl
  by_cases hblock : ∃ nodes, body = .block nodes
  · obtain ⟨nodes, rfl⟩ := hblock
    obtain ⟨statements, rfl, hlength, hstatements⟩ := hbody.block_cases
    match statements with
    | q :: r :: rest =>
      exact ⟨_, .function hname hpairs hstatements (List.cons_ne_nil _ _) (by simp) (.inr hform), ⟨⟩⟩
  · have hstatements : ∀ q ∈ [(body, f)], Spells (.plain false) q.1 q.2 := by simpa using hbody
    have hsingle : splicedBody f = [f] := by
      refine splicedBody_of_ne ?_
      rintro place forms span rfl
      obtain ⟨pairs, hnode, -⟩ := hbody.do_cases
      exact hblock ⟨_, hnode⟩
    exact ⟨_, .function hname hpairs hstatements (List.cons_ne_nil _ _) (by simp [hsingle]) (.inr hform), ⟨⟩⟩

lemma exists_bindings {bindings : List (Node × Node)} (htargets : ∀ b ∈ bindings, ∃ f, Spells (.plain false) b.1 f)
    (hvalues : ∀ b ∈ bindings, ∃ f, Spells (.plain false) b.2 f) :
    ∃ pairs : List (Node × Form), pairs.length % 2 = 0 ∧
      assignments (pairs.map Prod.fst) = bindings.map (fun b => .assignment b.1 b.2) ∧
      ∀ q ∈ pairs, Spells (.plain false) q.1 q.2 := by
  induction bindings with
  | nil => exact ⟨[], rfl, rfl, fun q hq => absurd hq List.not_mem_nil⟩
  | cons b rest ih =>
    obtain ⟨f, hf⟩ := htargets b List.mem_cons_self
    obtain ⟨g, hg⟩ := hvalues b List.mem_cons_self
    obtain ⟨pairs, heven, hnodes, hpairs⟩ := ih (fun c hc => htargets c (List.mem_cons_of_mem _ hc))
      fun c hc => hvalues c (List.mem_cons_of_mem _ hc)
    refine ⟨(b.1, f) :: (b.2, g) :: pairs, ?_, ?_, ?_⟩
    · rw [List.length_cons, List.length_cons]
      omega
    · rw [List.map_cons, List.map_cons, assignments, hnodes, List.map_cons]
    · rintro q (_ | ⟨_, _ | ⟨_, hq⟩⟩)
      · exact hf
      · exact hg
      · exact hpairs q hq

/-! ## Keywords and macros -/

lemma unescapeSymbol_nothingName : unescapeSymbol Node.nothingName = Node.nothingName :=
  unescapeSymbol_of_not_mem (by decide)

lemma spells_keyword {name key : Text} (hpair : NamePair name key) :
    Spells (.plain top) (.quote (.identifier name)) (.atom (.keyword key) none) := by
  have hform : keywordForm name = .atom (.keyword key) none := by
    rw [keywordForm, ← hpair.unescape]
    split
    next hnothing => rw [hnothing, unescapeSymbol_nothingName]
    next => rfl
  have htoken : isKeywordToken key = true := by
    have hname : isKeywordName key = true := by
      rw [isKeywordName, continuesPath_segment false hpair.isSegment, Bool.true_or]
    have hhead : key.head?.any (· ≠ ':') = true := by
      cases key with
      | nil => exact absurd rfl (segment_ne_nil hpair.isSegment)
      | cons c rest =>
        have hcolon := colon_not_mem_segment hpair.isSegment
        rw [List.mem_cons, not_or] at hcolon
        simpa using Ne.symm hcolon.1
    rw [isKeywordToken, all_isAtomChar_segment hpair.isSegment, hname, hhead]
    rfl
  exact .keyword hpair.escape hform (lexemes?_eq_keyword_iff.2 htoken)

lemma exists_macroCall {name : Text} (hname : isHostName name = true) {pairs : List (Node × Form)}
    (hpairs : ∀ q ∈ pairs, Spells .quoted q.1 q.2) :
    ∃ g, Spells (.plain top) (.macroCall ('@' :: name) (pairs.map Prod.fst)) g ∧ g.LeadsCall := by
  obtain ⟨rest, hrest, hpair, hform⟩ := exists_macroSymbol hname
  have htoken := isSymbolToken_of_isPath (all_isAtomChar_segment hpair.isSegment)
    (continuesPath_segment true hpair.isSegment) (startsNumber_macroName rest)
  have hreadable : (Atom.symbol ('@' :: rest)).Readable :=
    ⟨lexemes?_eq_symbol_iff.2 htoken, by simp, by simp, by simp⟩
  have hlength := List.length_pos_of_ne_nil hrest
  exact ⟨_, .macroCall hpair.escape hform hreadable rfl (by rw [List.length_cons]; omega) hpairs, ⟨⟩⟩

/-! ## All kinds of nodes -/

/-- Whether a node has a form that leads a call where the node does, and so have its parts if it could be
written as a literal of a dictionary or a set. -/
def Node.HasSpelling (top : Bool) (n : Node) : Prop :=
  (∃ f, Spells (.plain top) n f ∧ (n.LeadsCall → f.LeadsCall)) ∧
    ∀ m ∈ n.literalParts, ∃ f, Spells (.plain false) m f

lemma Node.HasSpelling.exists_spells {n : Node} (h : n.HasSpelling top) : ∃ f, Spells (.plain top) n f := by
  obtain ⟨⟨f, hf, -⟩, -⟩ := h
  exact ⟨f, hf⟩

/-- The forms of lists lead calls, whatever they spell. -/
lemma hasSpelling_of_leadsCall {n : Node} (hspells : ∃ f, Spells (.plain top) n f ∧ f.LeadsCall)
    (hparts : n.literalParts = []) : n.HasSpelling top := by
  obtain ⟨f, hf, hleads⟩ := hspells
  refine ⟨⟨f, hf, fun _ => hleads⟩, fun m hm => ?_⟩
  rw [hparts] at hm
  exact absurd hm List.not_mem_nil

/-- A canonical node has a form that spells it, at top level and, unless it is an assignment, elsewhere. -/
theorem hasSpelling {allowed : Bool} {n : Node} (h : n.Canonical allowed) (htop : allowed = true → top = true) :
    n.HasSpelling top := by
  induction h generalizing top with
  | statement h ih => exact ih nofun
  | literal hvalue => exact ⟨⟨_, .literal (readable_form hvalue), False.elim⟩, by simp [Node.literalParts]⟩
  | name hname =>
    obtain ⟨s, hs⟩ := pathSpelling_name (.inl hname.1) hname.2.2 hname.2.1
    refine ⟨⟨_, .path hs.pair hs.readable, fun hleads => ?_⟩, by simp [Node.literalParts]⟩
    cases hs.pair with
    | name hpair hhost =>
      rw [Node.LeadsCall, hpair.unescape] at hleads
      exact ⟨hleads, fun hmacroCall => hs.lead hmacroCall.1⟩
  | @operator name hname =>
    refine ⟨⟨_, spells_operator hname, fun hleads => ?_⟩, by simp [Node.literalParts]⟩
    have hop : isOperator name = true := by
      rcases hname with hname | hname
      · exact isOperator_of_isPlainOperator hname
      · exact (isSymbolToken_slash hname).1
    rw [Node.LeadsCall, unescapeSymbol_operator hop] at hleads
    refine ⟨hleads, fun hmacroCall => ?_⟩
    exact absurd ((isOperator_iff.1 hop).2 '@' (List.mem_of_mem_head? hmacroCall.1)) (by decide)
  | @keyword name hname =>
    obtain ⟨key, hpair, -⟩ := exists_segment hname
    exact ⟨⟨_, spells_keyword hpair, False.elim⟩, by simp [Node.literalParts]⟩
  | quote hname hvalue ih =>
    obtain ⟨f, hf⟩ := (ih nofun).exists_spells
    exact hasSpelling_of_leadsCall ⟨_, .quote hname hf, ⟨⟩⟩ rfl
  | interpolate hvalue ih =>
    obtain ⟨f, hf⟩ := (ih nofun).exists_spells
    exact hasSpelling_of_leadsCall ⟨_, .interpolate hf, ⟨⟩⟩ rfl
  | @call callee args hcallee hargs hleads hratio ihCallee ihArgs =>
    obtain ⟨⟨f, hf, hcall⟩, -⟩ := ihCallee nofun
    have hspellings : ∀ n ∈ args, n.HasSpelling false := fun n hn => ihArgs n hn nofun
    have hspelled := fun n hn => (hspellings n hn).exists_spells
    obtain ⟨g, hg, hleads'⟩ := exists_call hf (hcall hleads) hspelled (fun n hn => (hspellings n hn).2) hratio
    exact ⟨⟨g, hg, fun _ => hleads'⟩, hspelled⟩
  | ifThen hcondition hthen ihCondition ihThen =>
    obtain ⟨f, hf⟩ := (ihCondition nofun).exists_spells
    obtain ⟨g, hg⟩ := (ihThen nofun).exists_spells
    exact hasSpelling_of_leadsCall ⟨_, .ifThen hf hg, ⟨⟩⟩ rfl
  | ifElse hcondition hthen helse ihCondition ihThen ihElse =>
    obtain ⟨f, hf⟩ := (ihCondition nofun).exists_spells
    obtain ⟨g, hg⟩ := (ihThen nofun).exists_spells
    obtain ⟨e, he⟩ := (ihElse nofun).exists_spells
    exact hasSpelling_of_leadsCall ⟨_, .ifElse hf hg he, ⟨⟩⟩ rfl
  | block hbody hlength ih =>
    obtain ⟨pairs, rfl, hpairs⟩ := exists_pairs fun n hn => (ih n hn nofun).exists_spells
    exact hasSpelling_of_leadsCall ⟨_, .block hpairs (by simpa using hlength), ⟨⟩⟩ rfl
  | letBlock htargets hvalues hbody ihTargets ihValues ihBody =>
    obtain ⟨f, hf⟩ := (ihBody nofun).exists_spells
    obtain ⟨pairs, heven, hnodes, hpairs⟩ := exists_bindings
      (fun b hb => (ihTargets b hb nofun).exists_spells) fun b hb => (ihValues b hb nofun).exists_spells
    rw [← hnodes]
    exact hasSpelling_of_leadsCall ⟨_, .letBlock hpairs heven hf, ⟨⟩⟩ rfl
  | function hname hvector hparams hbody ihName ihParams ihBody =>
    obtain ⟨f, hf⟩ := (ihName nofun).exists_spells
    obtain ⟨g, hg⟩ := (ihBody nofun).exists_spells
    exact hasSpelling_of_leadsCall
      (exists_function hf hvector (fun n hn => (ihParams n hn nofun).exists_spells) hg) rfl
  | lambda hparams hbody ihParams ihBody =>
    obtain ⟨pairs, rfl, hpairs⟩ := exists_pairs fun n hn => (ihParams n hn nofun).exists_spells
    obtain ⟨f, hf⟩ := (ihBody nofun).exists_spells
    exact hasSpelling_of_leadsCall ⟨_, .lambda hpairs hf, ⟨⟩⟩ rfl
  | assignment htarget hvalue ihTarget ihValue =>
    obtain ⟨f, hf⟩ := (ihTarget nofun).exists_spells
    obtain ⟨g, hg⟩ := (ihValue nofun).exists_spells
    obtain rfl := htop rfl
    exact hasSpelling_of_leadsCall ⟨_, .assignment hf hg, ⟨⟩⟩ rfl
  | listing kind hparts hne ih =>
    obtain ⟨pairs, rfl, hpairs⟩ := exists_pairs fun n hn => (ih n hn nofun).exists_spells
    exact hasSpelling_of_leadsCall ⟨_, .listing kind hpairs (by simpa using hne), ⟨⟩⟩ (by cases kind <;> rfl)
  | emptyTuple => exact hasSpelling_of_leadsCall ⟨_, .emptyTuple, ⟨⟩⟩ rfl
  | subscript hcollection hindices ihCollection ihIndices =>
    obtain ⟨f, hf⟩ := (ihCollection nofun).exists_spells
    obtain ⟨pairs, rfl, hpairs⟩ := exists_pairs fun n hn => (ihIndices n hn nofun).exists_spells
    exact hasSpelling_of_leadsCall ⟨_, .subscript hf hpairs, ⟨⟩⟩ rfl
  | @range parts hparts hlength ih =>
    by_cases hopen : ∃ start, parts = [start, .identifier "end"]
    · obtain ⟨start, rfl⟩ := hopen
      obtain ⟨f, hf⟩ := (ih start List.mem_cons_self nofun).exists_spells
      exact hasSpelling_of_leadsCall ⟨_, .openRange hf, ⟨⟩⟩ rfl
    · obtain ⟨pairs, rfl, hpairs⟩ := exists_pairs fun n hn => (ih n hn nofun).exists_spells
      rw [List.length_map] at hlength
      exact hasSpelling_of_leadsCall ⟨_, .range hpairs hlength (by simpa using hopen), ⟨⟩⟩ rfl
  | field hbase hname hslash hoperators hliteral ih =>
    obtain ⟨f, hf⟩ := (ih nofun).exists_spells
    exact hasSpelling_of_leadsCall (exists_field hbase hf hname hslash hoperators hliteral) rfl
  | @ascription operands hoperands hne hnames htyped ih =>
    have hspelled : ∀ n ∈ operands, ∃ f, Spells (.plain false) n f := fun n hn => (ih n hn nofun).exists_spells
    exact hasSpelling_of_leadsCall (exists_ascription hoperands hspelled hne hnames htyped) rfl
  | @macroCall name args hname hargs =>
    obtain ⟨pairs, rfl, hpairs⟩ := exists_pairs fun n hn => exists_quotedSpelling (hargs n hn)
    exact hasSpelling_of_leadsCall (exists_macroCall hname hpairs) rfl
  | moduleBlock hname hbody ihName ihBody =>
    obtain ⟨f, hf⟩ := (ihName nofun).exists_spells
    obtain ⟨pairs, rfl, hpairs⟩ := exists_pairs fun n hn => (ihBody n hn fun _ => rfl).exists_spells
    exact hasSpelling_of_leadsCall ⟨_, .moduleBlock hf hpairs, ⟨⟩⟩ rfl
  | @vector items hitems ih =>
    have hspelled : ∀ n ∈ items, ∃ f, Spells (.plain false) n f := fun n hn => (ih n hn nofun).exists_spells
    obtain ⟨pairs, rfl, hpairs⟩ := exists_pairs hspelled
    exact ⟨⟨_, .vector hpairs, fun _ => ⟨⟩⟩, hspelled⟩

end

/-! ## The round trip -/

/-- What a canonical node is written as is a source of which the program is the node again. -/
lemma written_hasSpelling {top : Bool} {n : Node} (h : n.HasSpelling top) :
    ∃ t, n.written top = .ok t ∧ program t = .ok [n] := by
  obtain ⟨f, hf⟩ := h.exists_spells
  refine ⟨f.text, ?_, program_text hf.converts⟩
  rw [Node.written, hf.converts.toForm]
  rfl

lemma canonical_of_ne_assignment {n : Node} (h : n.Canonical true)
    (hn : ∀ target value, n ≠ .assignment target value) : n.Canonical false := by
  cases h with
  | statement h => exact h
  | assignment htarget hvalue => exact absurd rfl (hn _ _)

/-- A canonical node, written at top level or, unless it is an assignment, as a part of another node, is a
source of which the program is the node again. -/
theorem canonical_round_trip {n : Node} (h : n.Canonical true) :
    (∃ t, n.written true = .ok t ∧ program t = .ok [n]) ∧
      ((∀ target value, n ≠ .assignment target value) →
        ∃ t, n.written false = .ok t ∧ program t = .ok [n]) :=
  ⟨written_hasSpelling (hasSpelling h fun _ => rfl),
    fun hn => written_hasSpelling (hasSpelling (canonical_of_ne_assignment h hn) nofun)⟩

/-- A module with a definition and a macro call. -/
def sampleModule : Node :=
  .moduleBlock (.identifier "M")
    [.assignment (.identifier "x_y") (.dotAccess (.identifier "a") "b"),
      .macroCall "@time" [.raw "f" [.literal (.number (.int 1))]]]

lemma canonical_sampleModule : sampleModule.Canonical true := by
  have hplain : ∀ name ∈ (["M", "x_y", "a", "f"] : List Text), IsPlainName name := by
    intro name hname
    simp only [List.mem_cons, List.not_mem_nil, or_false] at hname
    rcases hname with rfl | rfl | rfl | rfl <;> exact ⟨by decide, by decide, by decide⟩
  have hname : ∀ name ∈ (["M", "x_y", "a", "f"] : List Text), (Node.identifier name).Canonical false :=
    fun name hmem => .name (hplain name hmem)
  have hslash : ∀ slash ∈ slashNames, Node.identifier "a" ≠ .identifier slash := by
    rintro slash hmem heq
    cases heq
    exact absurd hmem (by decide)
  have hfield : (Node.dotAccess (.identifier "a") "b").Canonical false := by
    refine .field (hname _ (by simp)) (.inl (by decide)) hslash ?_ fun _ => .inl rfl
    rintro other heq hop
    cases heq
    cases hop
  have hraw : (Node.raw "f" [.literal (.number (.int 1))]).Quotable := by
    refine .raw (.inl ⟨hplain _ (by simp), by decide, by decide⟩) ?_
    rintro n (_ | ⟨_, ⟨⟩⟩)
    refine .literal fun number heq => ?_
    cases heq
    trivial
  refine .statement (.moduleBlock (hname _ (by simp)) ?_)
  rintro n (_ | ⟨_, _ | ⟨_, ⟨⟩⟩⟩)
  · exact .assignment (hname _ (by simp)) hfield
  · refine .statement (.macroCall (by decide) ?_)
    rintro n (_ | ⟨_, ⟨⟩⟩)
    exact hraw

theorem canonical_round_trip_module : sampleModule.Canonical true ∧
    (∃ t, sampleModule.written true = .ok t ∧ program t = .ok [sampleModule]) ∧
    ∃ t, sampleModule.written false = .ok t ∧ program t = .ok [sampleModule] := by
  obtain ⟨htop, hinner⟩ := canonical_round_trip canonical_sampleModule
  exact ⟨canonical_sampleModule, htop, hinner nofun⟩

end Bilisp
