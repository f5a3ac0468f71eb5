import Bilisp.Proofs.NormalNodes

/-!
# The constants of a form and of its node

Every string, number, character and truth value of a form becomes one literal of its node, and all literals but
nothing come about so. Their order stays: what a form writes from left to right, its node holds in the order of the
fields (`constants_of_toNode`), in every special form and in the arguments of macro calls alike.
-/

namespace Bilisp

/-- The constants that an atom stands for. -/
def Atom.constants : Atom → List Literal
  | .string value => [.string value]
  | .number value => [.number value]
  | .boolean value => [.boolean value]
  | .character value => value.map .character
  | .symbol _ | .keyword _ | .nil => []

mutual

/-- The constants of a form, from left to right. -/
def Form.constants : Form → List Literal
  | .atom value _ => value.constants
  | .compound _ elements _ => Form.constantsAll elements

/-- The constants of several forms, from left to right. -/
def Form.constantsAll : List Form → List Literal
  | [] => []
  | f :: rest => f.constants ++ Form.constantsAll rest

end

namespace Node

mutual

/-- The constants in a node, apart from nothing, in the order of its fields. -/
def constants : Node → List Literal
  | .literal .nothing | .identifier _ => []
  | .literal value => [value]
  | .quote value | .interpolate value => constants value
  | .call callee args => constants callee ++ constantsAll args
  | .ifThen condition thenBranch => constants condition ++ constants thenBranch
  | .ifElse condition thenBranch elseBranch => constants condition ++ constants thenBranch ++ constants elseBranch
  | .letBlock bindings body => constantsAll bindings ++ constants body
  | .function name params body => constants name ++ constantsAll params ++ constants body
  | .anonymous params body | .lambda params body => constantsAll params ++ constants body
  | .bareLambda param body => constants param ++ constants body
  | .assignment target value => constants target ++ constants value
  | .subscript collection indices => constants collection ++ constantsAll indices
  | .dotAccess base _ => constants base
  | .moduleBlock name body => constants name ++ constantsAll body
  | .comparison nodes | .block nodes | .importNames nodes | .usingNames nodes | .exportNames nodes | .range nodes
  | .ascription nodes | .curly nodes | .macroCall _ nodes | .conjunction nodes | .disjunction nodes | .vector nodes
  | .tuple nodes | .raw _ nodes => constantsAll nodes

/-- The constants in several nodes. -/
def constantsAll : List Node → List Literal
  | [] => []
  | n :: rest => constants n ++ constantsAll rest

end

end Node

/-! ## Forms -/

mutual

@[simp] lemma Form.constants_bare (f : Form) : f.bare.constants = f.constants := by
  cases f with
  | atom value span => rfl
  | compound shape elements span => exact Form.constantsAll_bareAll elements

lemma Form.constantsAll_bareAll (forms : List Form) :
    Form.constantsAll (Form.bareAll forms) = Form.constantsAll forms := by
  cases forms with
  | nil => rfl
  | cons f rest =>
    rw [Form.bareAll, Form.constantsAll, Form.constantsAll, Form.constants_bare f, Form.constantsAll_bareAll rest]

end

@[simp] lemma constants_headed (name : Text) (forms : List Form) :
    (Form.headed name forms).constants = Form.constantsAll forms := rfl

/-! ## Nodes put together -/

lemma constants_sequence (nodes : List Node) : (Node.sequence nodes).constants = Node.constantsAll nodes := by
  match nodes with
  | [] => rfl
  | [n] => exact (List.append_nil n.constants).symm
  | _ :: _ :: _ => rfl

lemma constants_rangeOf (nodes : List Node) : (rangeOf nodes).constants = Node.constantsAll nodes := by
  match nodes with
  | [] => rfl
  | [_] => rfl
  | _ :: _ :: _ => rfl

lemma constants_listing (kind : Listing) (nodes : List Node) :
    (kind.node nodes).constants = Node.constantsAll nodes := by
  cases kind <;> rfl

/-- Dictionary entries hold the constants of the keys and values, of which none is left over. -/
lemma constantsAll_entries {nodes : List Node} (heven : nodes.length % 2 = 0) :
    Node.constantsAll (Node.entries nodes) = Node.constantsAll nodes := by
  induction nodes, heven using even_induction with
  | nil => rfl
  | pair key value rest _ ih => simp [Node.entries, Node.constantsAll, Node.constants, ih]

lemma constantsAll_assignments {nodes : List Node} (heven : nodes.length % 2 = 0) :
    Node.constantsAll (assignments nodes) = Node.constantsAll nodes := by
  induction nodes, heven using even_induction with
  | nil => rfl
  | pair target value rest _ ih => simp [assignments, Node.constantsAll, Node.constants, ih]

lemma constants_dictionary {nodes : List Node} (heven : nodes.length % 2 = 0) :
    (Node.dictionary nodes).constants = Node.constantsAll nodes :=
  constantsAll_entries heven

lemma constants_setOf (items : List Node) : (Node.setOf items).constants = Node.constantsAll items :=
  List.append_nil (Node.constantsAll items)

/-! ## Atoms -/

lemma constants_fields (base : Node) (segments : List Text) :
    (segments.foldl (fun node segment => .dotAccess node (escapeSymbol segment)) base).constants =
      base.constants := by
  induction segments generalizing base with
  | nil => rfl
  | cons segment rest ih => exact ih _

lemma constants_of_isPath {n : Node} (h : n.isPath = true) : n.constants = [] := by
  match n with
  | .identifier name => rfl
  | .dotAccess base field => exact constants_of_isPath (n := base) h

lemma constantsAll_paths {nodes : List Node} (h : ∀ n ∈ nodes, n.isPath = true) : Node.constantsAll nodes = [] := by
  induction nodes with
  | nil => rfl
  | cons n rest ih =>
    rw [List.forall_mem_cons] at h
    rw [Node.constantsAll, constants_of_isPath h.1, ih h.2]
    rfl

/-- Symbols name things, whatever marks stand in them. -/
lemma constants_of_symbolNode? {name : Text} {n : Node} (h : symbolNode? name = some n) : n.constants = [] := by
  rw [symbolNode?] at h
  split at h
  · rw [← Option.some.inj h]
    rfl
  · split at h
    · obtain ⟨operands, hoperands, rfl⟩ := Option.map_eq_some_iff.1 h
      exact constantsAll_paths (isPath_of_mapM hoperands).2
    · exact constants_of_isPath (isPath_of_pathNode? h)

lemma constants_of_atomNode {value : Atom} {span : Option Span} {n : Node} (h : atomNode value span = .ok n) :
    n.constants = value.constants := by
  cases value with
  | symbol name =>
    rw [atomNode] at h
    split at h
    next node hnode => exact Except.ok.inj h ▸ constants_of_symbolNode? hnode
    next => cases h
  | character text =>
    rcases text with _ | ⟨c, _ | ⟨d, rest⟩⟩
    · cases h
    · rw [← Except.ok.inj h]
      rfl
    · cases h
  | _ =>
    rw [← Except.ok.inj h]
    rfl

/-! ## All forms -/

lemma constantsAll_pairs {pairs : List (Node × Form)} (h : ∀ q ∈ pairs, q.1.constants = q.2.constants) :
    Node.constantsAll (pairs.map Prod.fst) = Form.constantsAll (pairs.map Prod.snd) := by
  induction pairs with
  | nil => rfl
  | cons q rest ih =>
    rw [List.forall_mem_cons] at h
    rw [List.map_cons, List.map_cons, Node.constantsAll, Form.constantsAll, h.1, ih h.2]

/-- Each rule for the reading of a form keeps the constants of the parts in their places. -/
lemma Reads.constants {p : Place} {n : Node} {f : Form} (h : Reads p n f) : n.constants = f.constants := by
  induction h with
  | atom hnode hkeyword => exact constants_of_atomNode hnode
  | quotedKeyword | emptyTuple | noParts => rfl
  | vector hitems ih | quotedTuple hitems ih | raw hquote htuple hargs ih | macroCall hhead hlength hargs ih =>
    exact constantsAll_pairs ih
  | dictionary hentries heven ih =>
    rw [constants_dictionary (by rwa [List.length_map])]
    exact constantsAll_pairs ih
  | setOf hitems ih => exact (constants_setOf _).trans (constantsAll_pairs ih)
  | unquoted h ih => exact ih.trans (List.append_nil _).symm
  | rawCall hfirst hparts ih => exact constantsAll_pairs ih
  | sequence hname hbody ih => exact (constants_sequence _).trans (constantsAll_pairs ih)
  | ifThen hname hcondition hthen ihCondition ihThen =>
    simp [Node.constants, Form.constantsAll, ihCondition, ihThen]
  | ifElse hname hcondition hthen helse ihCondition ihThen ihElse =>
    simp [Node.constants, Form.constantsAll, ihCondition, ihThen, ihElse]
  | quote hname hvalue ih | interpolate hname hvalue ih => exact ih.trans (List.append_nil _).symm
  | letBlock hname hbindings heven hbody ihBindings ihBody =>
    rw [Node.constants, constantsAll_assignments (by rwa [List.length_map]), constants_sequence,
      constantsAll_pairs ihBindings, constantsAll_pairs ihBody]
    rfl
  | lambda hname hparams hbody ihParams ihBody =>
    rw [Node.constants, constants_sequence, constantsAll_pairs ihParams, constantsAll_pairs ihBody]
    rfl
  | function hname hfunction hparams hbody ihFunction ihParams ihBody =>
    rw [Node.constants, constants_sequence, ihFunction, constantsAll_pairs ihParams, constantsAll_pairs ihBody,
      List.append_assoc]
    rfl
  | definition hname htarget hvalue ihTarget ihValue =>
    simp [Node.constants, Form.constantsAll, ihTarget, ihValue]
  | subscript hname hcollection hindices ihFirst ihRest | moduleBlock hname hmodule hbody ihFirst ihRest
  | call hleads hcallee hargs ihFirst ihRest =>
    rw [Node.constants, ihFirst, constantsAll_pairs ihRest]
    rfl
  | range hname hparts hne hlength ih => exact (constants_rangeOf _).trans (constantsAll_pairs ih)
  | listing kind hname hparts hne ih => exact (constants_listing kind _).trans (constantsAll_pairs ih)
  | access hname hfull hbase ih =>
    rw [constants_fields, ih]
    exact (List.append_nil _).symm
  | ascription hname hparts hne ih => exact constantsAll_pairs ih

/-- No constant is lost, doubled or moved: what a form writes from left to right is what its node holds in the order
of the fields, apart from nothing. -/
theorem constants_of_toNode {f : Form} {top : Bool} {n : Node} (h : f.toNode top = .ok n) :
    n.constants = f.constants := by
  have hreads : Reads (.plain top) n f.bare := reads_of_nodeAt (p := .plain top) h
  exact hreads.constants.trans f.constants_bare

/-- Bindings stand in front of the body, and the statement of a body that has only one is not in a block. -/
theorem constants_letBlock :
    let form : Form := .headed "let" [.vector [.symbol "c", .atom (.character "x") none],
      .headed "@m" [.headed "quote" [.atom (.string "s") none], .atom .nil none, .atom (.boolean true) none]]
    let node : Node := .letBlock [.assignment (.identifier "c") (.literal (.character 'x'))]
      (.macroCall "@m" [.literal (.string "s"), .literal .nothing, .literal (.boolean true)])
    form.toNode false = .ok node ∧ node.constants = form.constants ∧
      node.constants = [.character 'x', .string "s", .boolean true] := by
  intro form node
  have hnode : form.toNode false = .ok node := rfl
  exact ⟨hnode, constants_of_toNode hnode, rfl⟩

end Bilisp
