import Bilisp.Proofs.NormalNodes
import Bilisp.Proofs.Reachability
import Bilisp.Proofs.UnwritableNodes

/-!
# Nodes of forms are proper

What a node may be depends on where it stands in a program (`Node.Proper`): assignments stand among statements and
bindings only, and unevaluated lists in the arguments of macro calls. Everything that is reached in the node of a
form is proper (`proper_of_toNode`), whether or not a text is read as the form.
-/

namespace Bilisp

/-- Where a node stands: as a statement of a program or of a module, among the bindings of a block, inside the
argument of a macro call or as an entry of a dictionary there, or elsewhere. -/
inductive Standing where
  | statement
  | binding
  | argument
  | entry
  | operand

/-- Where the node of a form stands that is converted at a place. -/
def Place.standing : Place → Standing
  | .plain true => .statement
  | .plain false => .operand
  | .quoted => .argument

namespace Node

/-- Where the arguments of a call stand inside an argument of a macro call. -/
def argumentStanding (callee : Node) (args : List Node) : Standing :=
  match literalShape? callee args with
  | some .map => .entry
  | some _ => .argument
  | none => .operand

/-- The nodes inside a node with where they stand. In the argument of a macro call only vectors, tuples, unevaluated
lists, and literals of dictionaries and sets hold further nodes of the argument. -/
def occupants : Standing × Node → List (Standing × Node)
  | (_, .macroCall _ args) => args.map (Prod.mk .argument)
  | (_, .moduleBlock name body) => (.operand, name) :: body.map (Prod.mk .statement)
  | (_, .letBlock bindings body) => (.operand, body) :: bindings.map (Prod.mk .binding)
  | (.argument, .vector items) | (.argument, .tuple items) | (.argument, .raw _ items) =>
    items.map (Prod.mk .argument)
  | (.argument, .call callee args) => (.operand, callee) :: args.map (Prod.mk (argumentStanding callee args))
  | (.entry, .call callee args) => (.operand, callee) :: args.map (Prod.mk .argument)
  | (_, n) => n.children.map (Prod.mk .operand)

/-- Whether a node, apart from the nodes inside it, may stand somewhere. -/
def Proper (s : Standing) : Node → Prop
  | .comparison _ | .anonymous _ _ | .bareLambda _ _ => False
  | .block body => 2 ≤ body.length
  | .range parts => parts.length = 2 ∨ parts.length = 3
  | .letBlock bindings _ => ∀ n ∈ bindings, ∃ target value, n = .assignment target value
  | .importNames parts | .usingNames parts | .exportNames parts | .curly parts | .ascription parts => parts ≠ []
  | .macroCall name _ => name.head? = some '@' ∧ 2 ≤ name.length
  | .assignment _ _ => s = .statement ∨ s = .binding
  | .raw _ _ => s = .argument
  | _ => True

/-- Whether everything in a node is proper where it stands. -/
def AllProper (s : Standing) (n : Node) : Prop := ∀ v, Reaches occupants (s, n) v → v.2.Proper v.1

end Node

section

variable {s : Standing} {n : Node}

lemma allProper_iff : n.AllProper s ↔ n.Proper s ∧ ∀ v ∈ Node.occupants (s, n), v.2.AllProper v.1 :=
  forall_reaches_iff (P := fun v : Standing × Node => v.2.Proper v.1)

/-! ## Nodes that may stand anywhere -/

lemma Node.Proper.lift (h : n.Proper .operand) (s : Standing) : n.Proper s := by
  cases n with
  | assignment target value => exact h.elim nofun nofun
  | raw head args => cases h
  | _ => exact h

/-- The occupants of a node are the nodes inside it. -/
lemma map_snd_occupants (w : Standing × Node) : (Node.occupants w).map Prod.snd = w.2.children := by
  have hmap (t : Standing) (nodes : List Node) : (nodes.map (Prod.mk t)).map Prod.snd = nodes := by
    rw [List.map_map]
    exact List.map_id nodes
  unfold Node.occupants
  split
  case h_1 | h_4 | h_5 | h_6 | h_9 => exact hmap _ _
  case h_2 | h_3 | h_7 | h_8 => exact congrArg (_ :: ·) (hmap _ _)

lemma mem_children_of_mem_occupants {w v : Standing × Node} (hv : v ∈ Node.occupants w) : v.2 ∈ w.2.children :=
  map_snd_occupants w ▸ List.mem_map_of_mem hv

/-- Inside an operand nodes stand where they stand inside the node elsewhere, or as operands themselves. -/
lemma occupants_operand {v : Standing × Node} (hv : v ∈ Node.occupants (s, n)) :
    v ∈ Node.occupants (.operand, n) ∨ (.operand, v.2) ∈ Node.occupants (.operand, n) := by
  have hchild := mem_children_of_mem_occupants hv
  cases n with
  | macroCall | moduleBlock | letBlock => exact .inl hv
  | _ => exact .inr (List.mem_map_of_mem hchild)

/-- What is proper as an operand is proper anywhere. -/
lemma Node.AllProper.lift (h : n.AllProper .operand) : n.AllProper s := by
  induction hsize : sizeOf n using Nat.strongRecOn generalizing n s with
  | _ size ih =>
    subst hsize
    rw [allProper_iff] at h ⊢
    refine ⟨h.1.lift s, fun v hv => ?_⟩
    rcases occupants_operand hv with hsame | hoperand
    · exact h.2 v hsame
    · exact ih _ (sizeOf_children (mem_children_of_mem_occupants hv)) (h.2 _ hoperand) rfl

/-! ## Nodes put together -/

/-- Most nodes are proper as operands if the nodes inside them are. -/
lemma allProper_operand (hoccupants : Node.occupants (.operand, n) = n.children.map (Prod.mk .operand))
    (h : n.Proper .operand) (hchildren : ∀ m ∈ n.children, m.AllProper .operand) : n.AllProper .operand := by
  rw [allProper_iff, hoccupants]
  exact ⟨h, List.forall_mem_map.2 hchildren⟩

lemma allProper_identifier (name : Text) (s : Standing) : (Node.identifier name).AllProper s :=
  .lift (allProper_operand rfl trivial (List.forall_mem_nil _))

lemma allProper_literal (value : Literal) (s : Standing) : (Node.literal value).AllProper s :=
  .lift (allProper_operand rfl trivial (List.forall_mem_nil _))

lemma allProper_dotAccess {base : Node} (h : base.AllProper .operand) (field : Text) :
    (Node.dotAccess base field).AllProper .operand :=
  allProper_operand rfl trivial (List.forall_mem_singleton.2 h)

lemma allProper_foldl {base : Node} (h : base.AllProper .operand) (segments : List Text) :
    (segments.foldl (fun node segment => .dotAccess node (escapeSymbol segment)) base).AllProper .operand := by
  induction segments generalizing base with
  | nil => exact h
  | cons segment rest ih => exact ih (allProper_dotAccess h _)

lemma allProper_sequence {nodes : List Node} (h : ∀ m ∈ nodes, m.AllProper .operand) :
    (Node.sequence nodes).AllProper .operand := by
  match nodes with
  | [] => exact allProper_literal .nothing .operand
  | [m] => exact h m List.mem_cons_self
  | _ :: _ :: rest => exact allProper_operand rfl (Nat.le_add_left 2 rest.length) h

lemma allProper_rangeOf {nodes : List Node} (h : ∀ m ∈ nodes, m.AllProper .operand) (hne : nodes ≠ [])
    (hlength : nodes.length ≤ 3) : (rangeOf nodes).AllProper .operand := by
  match nodes with
  | [] => exact absurd rfl hne
  | [m] =>
    refine allProper_operand rfl (.inl rfl) ?_
    exact List.forall_mem_cons.2 ⟨h m List.mem_cons_self, List.forall_mem_singleton.2 (allProper_identifier _ _)⟩
  | [_, _] => exact allProper_operand rfl (.inl rfl) h
  | [_, _, _] => exact allProper_operand rfl (.inr rfl) h

lemma allProper_listing (kind : Listing) {nodes : List Node} (h : ∀ m ∈ nodes, m.AllProper .operand)
    (hne : nodes ≠ [] ∨ kind.MayBeEmpty) : (kind.node nodes).AllProper .operand := by
  cases kind with
  | tuple | conjunction | disjunction => exact allProper_operand rfl trivial h
  | _ => exact allProper_operand rfl (hne.resolve_right (by simp [Listing.MayBeEmpty])) h

/-- The assignments of bindings are proper among bindings. -/
lemma allProper_assignments {nodes : List Node} (h : ∀ m ∈ nodes, m.AllProper .operand) :
    ∀ m ∈ assignments nodes, (∃ target value, m = .assignment target value) ∧ m.AllProper .binding := by
  match nodes with
  | [] => exact List.forall_mem_nil _
  | [_] => exact List.forall_mem_nil _
  | target :: value :: rest =>
    simp only [List.forall_mem_cons] at h
    obtain ⟨htarget, hvalue, hrest⟩ := h
    have hassignment : (Node.assignment target value).AllProper .binding :=
      allProper_iff.2 ⟨.inr rfl, List.forall_mem_cons.2 ⟨htarget, List.forall_mem_singleton.2 hvalue⟩⟩
    exact List.forall_mem_cons.2 ⟨⟨⟨target, value, rfl⟩, hassignment⟩, allProper_assignments hrest⟩

/-- The entries of a dictionary are proper where calls have arguments that stand as the keys and values do. -/
lemma allProper_entries {t : Standing} {nodes : List Node}
    (hoccupants : ∀ callee args, Node.occupants (s, .call callee args) = (.operand, callee) :: args.map (Prod.mk t))
    (h : ∀ m ∈ nodes, m.AllProper t) : ∀ m ∈ Node.entries nodes, m.AllProper s := by
  fun_induction Node.entries nodes with
  | case1 key value rest ih =>
    simp only [List.forall_mem_cons] at h ⊢
    obtain ⟨hkey, hvalue, hrest⟩ := h
    refine ⟨allProper_iff.2 ⟨trivial, ?_⟩, ih hrest⟩
    rw [hoccupants]
    exact List.forall_mem_cons.2 ⟨allProper_identifier _ _,
      List.forall_mem_cons.2 ⟨hkey, List.forall_mem_singleton.2 hvalue⟩⟩
  | case2 => exact List.forall_mem_nil _

lemma allProper_of_isPath {n : Node} (h : n.isPath = true) : n.AllProper .operand := by
  match n with
  | .identifier name => exact allProper_identifier name .operand
  | .dotAccess base field => exact allProper_dotAccess (allProper_of_isPath (n := base) h) field

lemma allProper_of_symbolNode? {name : Text} (h : symbolNode? name = some n) : n.AllProper .operand := by
  rw [symbolNode?] at h
  split at h
  · exact Option.some.inj h ▸ allProper_identifier name .operand
  · split at h
    next hmark =>
      obtain ⟨operands, hoperands, rfl⟩ := Option.map_eq_some_iff.1 h
      obtain ⟨hlength, hpaths⟩ := isPath_of_mapM hoperands
      exact allProper_operand rfl (ne_nil_of_length_eq hlength (ascribedParts_ne_nil hmark))
        fun m hm => allProper_of_isPath (hpaths m hm)
    · exact allProper_of_isPath (isPath_of_pathNode? h)

lemma allProper_of_atomNode {value : Atom} {span : Option Span} (h : atomNode value span = .ok n) :
    n.AllProper .operand := by
  cases value with
  | symbol name =>
    rw [atomNode] at h
    split at h
    next node hnode => exact Except.ok.inj h ▸ allProper_of_symbolNode? hnode
    next => cases h
  | character text =>
    rw [atomNode] at h
    split at h
    next => exact Except.ok.inj h ▸ allProper_literal _ .operand
    next => cases h
  | keyword name =>
    rw [← Except.ok.inj h]
    exact allProper_operand rfl trivial (List.forall_mem_singleton.2 (allProper_identifier _ _))
  | _ => exact Except.ok.inj h ▸ allProper_literal _ .operand

end

/-! ## All forms -/

/-- What is read at a place is proper there. -/
theorem Reads.allProper {p : Place} {n : Node} {f : Form} (h : Reads p n f) : n.AllProper p.standing := by
  have hmap {s : Standing} {pairs : List (Node × Form)} (h : ∀ q ∈ pairs, q.1.AllProper s) :
      ∀ m ∈ pairs.map Prod.fst, m.AllProper s := List.forall_mem_map.2 h
  induction h with
  | atom hnode hkeyword => exact (allProper_of_atomNode hnode).lift
  | quotedKeyword => exact allProper_identifier _ _
  | @vector p _ hitems ih =>
    cases p with
    | plain top => exact .lift (allProper_operand rfl trivial (hmap ih))
    | quoted => exact allProper_iff.2 ⟨trivial, List.forall_mem_map.2 (hmap ih)⟩
  | @dictionary p pairs hentries heven ih =>
    cases p with
    | plain top =>
      refine .lift (allProper_operand rfl trivial ?_)
      exact List.forall_mem_cons.2 ⟨allProper_identifier _ _, allProper_entries (fun _ _ => rfl) (hmap ih)⟩
    | quoted =>
      refine allProper_iff.2 ⟨trivial, List.forall_mem_cons.2 ⟨allProper_identifier _ _, ?_⟩⟩
      rw [Node.argumentStanding, literalShape?_dictionary]
      exact List.forall_mem_map.2 (allProper_entries (fun _ _ => rfl) (hmap ih))
  | @setOf p _ hitems ih =>
    cases p with
    | plain top =>
      refine .lift (allProper_operand rfl trivial (List.forall_mem_cons.2 ⟨allProper_identifier _ _, ?_⟩))
      exact List.forall_mem_singleton.2 (allProper_operand rfl trivial (hmap ih))
    | quoted =>
      refine allProper_iff.2 ⟨trivial, List.forall_mem_cons.2 ⟨allProper_identifier _ _, ?_⟩⟩
      rw [Node.argumentStanding, literalShape?_setOf]
      exact List.forall_mem_singleton.2 (allProper_iff.2 ⟨trivial, List.forall_mem_map.2 (hmap ih)⟩)
  | emptyTuple => exact .lift (allProper_operand rfl trivial (List.forall_mem_nil _))
  | quotedTuple hitems ih => exact allProper_iff.2 ⟨trivial, List.forall_mem_map.2 (hmap ih)⟩
  | unquoted h ih => exact ih.lift
  | raw hquote htuple hargs ih => exact allProper_iff.2 ⟨rfl, List.forall_mem_map.2 (hmap ih)⟩
  | rawCall hfirst hparts ih =>
    exact allProper_iff.2 ⟨rfl, List.forall_mem_map.2 (hmap ih)⟩
  | sequence hname hbody ih => exact (allProper_sequence (hmap ih)).lift
  | ifThen hname hcondition hthen ihCondition ihThen =>
    refine .lift (allProper_operand rfl trivial ?_)
    simpa [Node.children, Node.parts] using ⟨ihCondition, ihThen⟩
  | ifElse hname hcondition hthen helse ihCondition ihThen ihElse =>
    refine .lift (allProper_operand rfl trivial ?_)
    simpa [Node.children, Node.parts] using ⟨ihCondition, ihThen, ihElse⟩
  | quote hname hvalue ih => exact .lift (allProper_operand rfl trivial (List.forall_mem_singleton.2 ih))
  | interpolate hname hvalue ih => exact .lift (allProper_operand rfl trivial (List.forall_mem_singleton.2 ih))
  | letBlock hname hbindings heven hbody ihBindings ihBody =>
    have hassignments := allProper_assignments (hmap ihBindings)
    refine .lift (allProper_iff.2 ⟨fun m hm => (hassignments m hm).1, ?_⟩)
    exact List.forall_mem_cons.2
      ⟨allProper_sequence (hmap ihBody), List.forall_mem_map.2 fun m hm => (hassignments m hm).2⟩
  | lambda hname hparams hbody ihParams ihBody =>
    refine .lift (allProper_operand rfl trivial ?_)
    exact List.forall_mem_append.2
      ⟨hmap ihParams, List.forall_mem_singleton.2 (allProper_sequence (hmap ihBody))⟩
  | function hname hfunction hparams hbody ihFunction ihParams ihBody =>
    refine .lift (allProper_operand rfl trivial ?_)
    exact List.forall_mem_cons.2 ⟨ihFunction, List.forall_mem_append.2
      ⟨hmap ihParams, List.forall_mem_singleton.2 (allProper_sequence (hmap ihBody))⟩⟩
  | definition hname htarget hvalue ihTarget ihValue =>
    exact allProper_iff.2 ⟨.inl rfl,
      List.forall_mem_cons.2 ⟨ihTarget, List.forall_mem_singleton.2 ihValue⟩⟩
  | subscript hname hcollection hindices ihCollection ihIndices =>
    exact .lift (allProper_operand rfl trivial (List.forall_mem_cons.2 ⟨ihCollection, hmap ihIndices⟩))
  | range hname hparts hne hlength ih =>
    exact (allProper_rangeOf (hmap ih) (by simpa using hne) (by simpa using hlength)).lift
  | moduleBlock hname hmodule hbody ihModule ihBody =>
    refine .lift (allProper_iff.2 ⟨trivial, ?_⟩)
    exact List.forall_mem_cons.2 ⟨ihModule, List.forall_mem_map.2 (hmap ihBody)⟩
  | listing kind hname hparts hne ih =>
    exact .lift (allProper_listing kind (hmap ih) (by simpa using hne))
  | noParts hname => exact .lift (allProper_operand rfl trivial (List.forall_mem_nil _))
  | access hname hfull hbase ih => exact (allProper_foldl ih _).lift
  | @ascription _ _ pairs hname hparts hne ih =>
    have hnodes : pairs.map Prod.fst ≠ [] := by simpa using hne
    exact .lift (allProper_operand rfl hnodes (hmap ih))
  | macroCall hhead hlength hargs ih =>
    have hname := escapeSymbol_macro hhead hlength
    exact .lift (allProper_iff.2 ⟨hname, List.forall_mem_map.2 (hmap ih)⟩)
  | call hleads hcallee hargs ihCallee ihArgs =>
    exact .lift (allProper_operand rfl trivial (List.forall_mem_cons.2 ⟨ihCallee, hmap ihArgs⟩))

/-- A form is converted to a node that is proper with everything in it. There is no comparison in it and no function
that lacks a name or the tuple of its parameters; blocks, ranges, bindings, declarations and macro names have their
length; assignments are statements or bindings, and unevaluated lists stand in the arguments of macro calls. -/
theorem proper_of_toNode {f : Form} {top : Bool} {n : Node} (h : f.toNode top = .ok n) :
    ∀ s m, Reaches Node.occupants (if top then .statement else .operand, n) (s, m) → m.Proper s := by
  intro s m hm
  have hn : n.AllProper (Place.plain top).standing := (reads_of_nodeAt (p := .plain top) h).allProper
  cases top with
  | true => exact hn (s, m) hm
  | false => exact hn (s, m) hm

/-- A definition in a module, of which the value is a macro call with an unevaluated list in a vector. -/
theorem proper_moduleDefinition :
    let form : Form := .headed "module" [.symbol "M",
      .headed "def" [.symbol "x", .headed "@m" [.vector [.headed "f" [.symbol "y"]]]]]
    let raw : Node := .raw "f" [.identifier "y"]
    let node : Node := .moduleBlock (.identifier "M")
      [.assignment (.identifier "x") (.macroCall "@m" [.vector [raw]])]
    form.toNode false = .ok node ∧ Reaches Node.occupants (.operand, node) (.argument, raw) ∧
      ∀ s m, Reaches Node.occupants (.operand, node) (s, m) → m.Proper s := by
  intro form raw node
  have hnode : form.toNode false = .ok node := rfl
  have hassignment : Reaches Node.occupants (.operand, node)
      (.statement, .assignment (.identifier "x") (.macroCall "@m" [.vector [raw]])) :=
    .head (.tail _ (.head _)) (reaches_self _ _)
  have hvector : Reaches Node.occupants (.operand, .macroCall "@m" [.vector [raw]]) (.argument, raw) :=
    .head (.head _) (.head (.head _) (reaches_self _ _))
  exact ⟨hnode, hassignment.trans (.head (.tail _ (.head _)) hvector), proper_of_toNode hnode⟩

end Bilisp
