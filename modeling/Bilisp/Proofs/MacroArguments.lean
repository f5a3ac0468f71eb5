import Bilisp.Proofs.Reachability
import Bilisp.Proofs.SettledArguments

/-!
# Arguments of macros come back as they were written

In a macro call every compound node is written as a list of its head and its parts, and the list is read as an
unevaluated one, which is another node. What is read is written in the same way again, though: where no quotation
stands in the arguments, one trip from nodes to forms and back leads to a fixed point (`macroCall_returns`).
-/

namespace Bilisp

namespace Node

/-- Whether a node, apart from the nodes inside it, is no quotation, and identifiers of the host or operators are
its names. -/
def IsArgument : Node → Prop
  | .quote _ => False
  | .identifier name | .dotAccess _ name => isHostName name = true ∨ isOperator name = true
  | .macroCall name _ => ∃ rest, name = '@' :: rest ∧ isHostName rest = true
  | .raw head _ =>
    isOperator head = true ∨ isHostName head = true ∧ head ∉ ["quote".toList, "tuple".toList, nothingName]
  | _ => True

/-- Whether everything in a node is an argument. -/
def AllArguments (n : Node) : Prop := ∀ m, Reaches children n m → m.IsArgument

lemma allArguments_iff {n : Node} : n.AllArguments ↔ n.IsArgument ∧ ∀ m ∈ n.children, m.AllArguments :=
  forall_reaches_iff

lemma AllArguments.isArgument {n : Node} (h : n.AllArguments) : n.IsArgument := (allArguments_iff.1 h).1

lemma AllArguments.children {n : Node} (h : n.AllArguments) : ∀ m ∈ n.children, m.AllArguments :=
  (allArguments_iff.1 h).2

end Node

/-- Whether a form in a macro call is read as a node that is written as the form. -/
def Form.Returns (f : Form) : Prop := ∃ n, f.toQuotedNode = .ok n ∧ n.toQuotedForm = .ok f

/-! ## Names -/

lemma returns_nil : Form.nil.Returns := ⟨.literal .nothing, rfl, rfl⟩

lemma returns_literal (value : Literal) : value.form.Returns := by
  refine ⟨.literal value, ?_, by rw [Node.toQuotedForm]; rfl⟩
  cases value <;> rfl

/-- A name comes back if its symbol is read as the name, also where it is written as nil. -/
lemma returns_nameForm {name : Text} (h : symbolNode? (unescapeSymbol name) = some (.identifier name)) :
    (nameForm name).Returns := by
  by_cases hnothing : name = Node.nothingName
  · rw [nameForm, if_pos hnothing]
    exact returns_nil
  · refine ⟨.identifier name, ?_, by rw [Node.toQuotedForm]; rfl⟩
    rw [nameForm_of_ne hnothing, Form.symbol, Form.toQuotedNode, atomNode, h]
    rintro _ ⟨⟩

lemma NamePair.symbolNode? {host segment : Text} (h : NamePair host segment) :
    symbolNode? segment = some (.identifier host) := by
  rw [Bilisp.symbolNode?]
  by_cases hop : isOperator segment = true
  · rw [if_pos hop, ← h.escape, escapeSymbol_operator hop]
  · rw [if_neg hop, hasAscription_of_not_mem (colon_not_mem_segment h.isSegment), if_neg Bool.false_ne_true,
      pathNode?_segment h.isSegment, h.escape]

lemma symbolNode?_operator {name : Text} (h : isOperator name = true) :
    symbolNode? (unescapeSymbol name) = some (.identifier name) := by
  rw [unescapeSymbol_operator h, Bilisp.symbolNode?, if_pos h]

lemma returns_name {name : Text} (h : isHostName name = true ∨ isOperator name = true) :
    (nameForm name).Returns := by
  rcases h with h | h
  · exact returns_nameForm (namePair_hostName h).symbolNode?
  · exact returns_nameForm (symbolNode?_operator h)

/-! ## Collections and unevaluated lists -/

section

variable {forms : List Form} (hforms : ∀ f ∈ forms, f.Returns)

include hforms

lemma exists_returned : ∃ nodes : List Node, nodes.length = forms.length ∧
    Form.toQuotedNodes forms = .ok nodes ∧ Node.toQuotedForms nodes = .ok forms := by
  induction forms with
  | nil => exact ⟨[], rfl, rfl, rfl⟩
  | cons f rest ih =>
    rw [List.forall_mem_cons] at hforms
    obtain ⟨n, hn, hf⟩ := hforms.1
    obtain ⟨nodes, hlength, hnodes, hrest⟩ := ih hforms.2
    refine ⟨n :: nodes, congrArg (· + 1) hlength, ?_, ?_⟩
    · rw [Form.toQuotedNodes, hn, hnodes]
      rfl
    · rw [Node.toQuotedForms, hf, hrest]
      rfl

lemma returns_vector : (Form.vector forms).Returns := by
  obtain ⟨nodes, -, hnodes, hwritten⟩ := exists_returned hforms
  refine ⟨.vector nodes, ?_, ?_⟩
  · rw [Form.vector, Form.toQuotedNode, hnodes]
    rfl
  · rw [Node.toQuotedForm, hwritten]
    rfl

lemma returns_map (heven : forms.length % 2 = 0) : (Form.compound .map forms none).Returns := by
  obtain ⟨nodes, hlength, hnodes, hwritten⟩ := exists_returned hforms
  refine ⟨.dictionary nodes, ?_, ?_⟩
  · rw [Form.toQuotedNode, if_neg (by omega), hnodes]
    rfl
  · rw [Node.dictionary, toQuotedForm_call, callParts_dictionary (hlength ▸ heven), hwritten]
    exact congrArg Except.ok (callForm_dictionary _ _ nodes)

lemma returns_set : (Form.compound .set forms none).Returns := by
  obtain ⟨nodes, -, hnodes, hwritten⟩ := exists_returned hforms
  refine ⟨.setOf nodes, ?_, ?_⟩
  · rw [Form.toQuotedNode, hnodes]
    rfl
  · rw [Node.setOf, toQuotedForm_call, callParts_setOf, hwritten]
    exact congrArg Except.ok (callForm_setOf _ _ nodes)

lemma returns_tuple : (Form.headed "tuple" forms).Returns := by
  obtain ⟨nodes, -, hnodes, hwritten⟩ := exists_returned hforms
  refine ⟨.tuple nodes, ?_, ?_⟩
  · rw [Form.headed, Form.list, Form.symbol, toQuotedNode_tuple, hnodes]
    rfl
  · rw [Node.toQuotedForm, hwritten]
    rfl

/-- An unevaluated list comes back if its head is the name that the symbol of the head stands for. -/
lemma returns_raw {head : Text} (hescape : escapeSymbol (unescapeSymbol head) = head)
    (hhead : head ∉ ["quote".toList, "tuple".toList, Node.nothingName]) :
    (Form.list (nameForm head :: forms)).Returns := by
  obtain ⟨nodes, -, hnodes, hwritten⟩ := exists_returned hforms
  simp only [List.mem_cons, List.not_mem_nil, or_false, not_or] at hhead
  obtain ⟨hquote, htuple, hnothing⟩ := hhead
  have hsymbol {word : Text} (hword : escapeSymbol word = word) (hne : head ≠ word) : unescapeSymbol head ≠ word := by
    intro heq
    exact hne (hescape.symm.trans (heq ▸ hword))
  refine ⟨.raw head nodes, ?_, ?_⟩
  · rw [nameForm_of_ne hnothing, Form.list, Form.symbol,
      toQuotedNode_raw _ _ _ (hsymbol (by decide) hquote) (hsymbol (by decide) htuple), hnodes, hescape]
    rfl
  · rw [Node.toQuotedForm, hwritten]
    rfl

lemma returns_word {word : Text} (hword : word ∈ quotedWords) : (Form.headed word forms).Returns := by
  have hheads : ∀ word ∈ quotedWords, word ∉ ["quote".toList, "tuple".toList, Node.nothingName] := by decide
  obtain ⟨hhead, hform⟩ := isHeadName_quotedWord hword
  rw [Form.headed, ← hform]
  exact returns_raw hforms hhead.1.2 (hheads word hword)

end

lemma holds_returns : Form.HoldsInMacros Form.Returns where
  nil := returns_nil
  vector := returns_vector
  map := returns_map
  set := returns_set
  tuple := returns_tuple
  word hword hforms := returns_word hforms hword

/-! ## Arguments -/

lemma returns_assembled {n : Node} {forms : List Form} (hargument : n.IsArgument) (hforms : ∀ f ∈ forms, f.Returns)
    (hlength : forms.length = (n.visits .quoted).length) : (n.assembleQuoted forms).Returns := by
  have hquote : ∀ value, n ≠ .quote value := by
    rintro value rfl
    exact hargument
  refine holds_assembleQuoted holds_returns hquote (fun value _ => returns_literal value) (fun name hname => ?_)
    (fun head args hn => ?_) hforms hlength
  · cases n with
    | identifier | dotAccess =>
      cases hname
      exact returns_name hargument
    | macroCall =>
      cases hname
      obtain ⟨rest, rfl, hrest⟩ := hargument
      exact returns_nameForm (namePair_append (.inr rfl) hrest).symbolNode?
    | _ => cases hname
  · subst hn
    rcases hargument with hop | ⟨hhost, hhead⟩
    · refine returns_raw hforms (by rw [unescapeSymbol_operator hop, escapeSymbol_operator hop]) ?_
      have hwords : ∀ word ∈ ["quote".toList, "tuple".toList, Node.nothingName], isOperator word = false := by decide
      intro hmem
      rw [hwords head hmem] at hop
      cases hop
    · exact returns_raw hforms (namePair_hostName hhost).escape hhead

/-- An argument has a form in macro calls, which comes back. -/
lemma exists_returning {n : Node} (h : n.AllArguments) : ∃ f, n.toQuotedForm = .ok f ∧ f.Returns := by
  induction hsize : sizeOf n using Nat.strongRecOn generalizing n with
  | _ size ih =>
    subst hsize
    have hquote : ∀ value, n ≠ .quote value := by
      rintro value rfl
      exact h.isArgument
    have hparts : ∀ v ∈ n.visits .quoted, ∃ f, v.2.formAt v.1 = .ok f ∧ f.Returns := by
      intro v hv
      have hvisit := forall_visits Node.AllArguments.children h .quoted v hv
      have hsmaller := sizeOf_visits hv
      rw [visits_quoted hquote] at hv
      obtain ⟨m, -, rfl⟩ := List.mem_map.1 hv
      exact ih (sizeOf m) hsmaller hvisit rfl
    obtain ⟨forms, hforms⟩ := exists_forall₂_iff.2 hparts
    refine ⟨n.assembleQuoted forms, ?_, ?_⟩
    · have hfits : n.Fits .quoted := trivial
      exact formAt_eq_ok.2 ⟨hfits, forms, hforms.imp fun _ _ h => h.1, rfl⟩
    · refine returns_assembled h.isArgument (fun f hf => ?_) hforms.length_eq.symm
      obtain ⟨v, -, hv⟩ := exists_of_mem_forall₂ hforms f hf
      exact hv.2

lemma exists_returningAll {nodes : List Node} (h : ∀ n ∈ nodes, n.AllArguments) :
    ∃ forms, Node.toQuotedForms nodes = .ok forms ∧ ∀ f ∈ forms, f.Returns := by
  induction nodes with
  | nil => exact ⟨[], rfl, List.forall_mem_nil _⟩
  | cons n rest ih =>
    rw [List.forall_mem_cons] at h
    obtain ⟨f, hf, hreturns⟩ := exists_returning h.1
    obtain ⟨forms, hforms, hreturnsAll⟩ := ih h.2
    refine ⟨f :: forms, ?_, List.forall_mem_cons.2 ⟨hreturns, hreturnsAll⟩⟩
    rw [Node.toQuotedForms, hf, hforms]
    rfl

/-- A macro call without quotations in its arguments has a form, the form is converted to a node, and the node has
the same form: after one trip nothing changes any more, although the node may be another one. -/
theorem macroCall_returns {name : Text} {args : List Node} (hname : isHostName name = true)
    (hargs : ∀ n ∈ args, n.AllArguments) :
    ∃ f, (∀ top, (Node.macroCall ('@' :: name) args).toForm top = .ok f) ∧
      ∃ n, (∀ top, f.toNode top = .ok n) ∧ ∀ top, n.toForm top = .ok f := by
  obtain ⟨symbol, hsymbol, hpair, hform⟩ := exists_macroSymbol hname
  obtain ⟨forms, hforms, hreturns⟩ := exists_returningAll hargs
  obtain ⟨nodes, -, hnodes, hreturned⟩ := exists_returned hreturns
  have hhead : ('@' :: symbol).head? = some '@' ∧ 1 < ('@' :: symbol).length :=
    ⟨rfl, Nat.succ_lt_succ (List.length_pos_of_ne_nil hsymbol)⟩
  have hwritten {parts : List Node} (hparts : Node.toQuotedForms parts = .ok forms) (top : Bool) :
      (Node.macroCall ('@' :: name) parts).toForm top = .ok (.headed ('@' :: symbol) forms) := by
    rw [Node.toForm, hparts, hform]
    rfl
  refine ⟨_, hwritten hforms, .macroCall ('@' :: name) nodes, fun top => ?_, hwritten hreturned⟩
  rw [Form.headed, Form.list, Form.symbol, Form.toNode, Form.head?]
  dsimp only
  rw [ofName?_of_head hhead.1]
  dsimp only
  rw [if_pos hhead, hnodes, hpair.escape]
  rfl

/-- A function whose signature looks like a dictionary, with no value as its body, and the field of an operator. -/
theorem macroCall_returns_signature :
    let entry : Node := .call (.identifier "=>") [.identifier "k", .literal (.number (.int 1))]
    let args : List Node := [.function (.identifier "Dict") [entry] (.identifier "nothing"),
      .dotAccess (.identifier "-") "/"]
    let form : Form := .headed "@m" [.headed "function" [.compound .map [.symbol "k", .atom (.number (.int 1)) none] none,
      .nil], .headed "." [.symbol "-", .symbol "/"]]
    isHostName "m" = true ∧ (∀ n ∈ args, n.AllArguments) ∧ (Node.macroCall "@m" args).toForm false = .ok form ∧
      ∃ n, form.toNode false = .ok n ∧ n.toForm false = .ok form := by
  intro entry args form
  have hleaf {n : Node} (hn : n.IsArgument) (hchildren : n.children = []) : n.AllArguments :=
    Node.allArguments_iff.2 ⟨hn, by rw [hchildren]; exact List.forall_mem_nil _⟩
  have hentry : entry.AllArguments :=
    Node.allArguments_iff.2 ⟨trivial, List.forall_mem_cons.2 ⟨hleaf (.inr rfl) rfl,
      List.forall_mem_cons.2 ⟨hleaf (.inl rfl) rfl, List.forall_mem_singleton.2 (hleaf trivial rfl)⟩⟩⟩
  have hargs : ∀ n ∈ args, n.AllArguments :=
    List.forall_mem_cons.2 ⟨Node.allArguments_iff.2 ⟨trivial, List.forall_mem_cons.2 ⟨hleaf (.inl rfl) rfl,
      List.forall_mem_cons.2 ⟨hentry, List.forall_mem_singleton.2 (hleaf (.inl rfl) rfl)⟩⟩⟩,
      List.forall_mem_singleton.2
        (Node.allArguments_iff.2 ⟨.inr rfl, List.forall_mem_singleton.2 (hleaf (.inr rfl) rfl)⟩)⟩
  have hform : (Node.macroCall "@m" args).toForm false = .ok form := by
    have hnames : ∀ name ∈ ["@m".toList, "k".toList, "-".toList, "/".toList], nameForm name = .symbol name := by
      intro name hname
      have hmarks : ∀ name ∈ ["@m".toList, "k".toList, "-".toList, "/".toList],
          name ≠ Node.nothingName ∧ '_' ∉ name := by decide
      rw [nameForm_of_ne (hmarks name hname).1, unescapeSymbol_of_not_mem (hmarks name hname).2]
    have hwritten : (Node.macroCall "@m" args).toForm false = .ok (.list (nameForm "@m" ::
        [.headed "function" [.compound .map [nameForm "k", .atom (.number (.int 1)) none] none, .nil],
          .headed "." [nameForm "-", nameForm "/"]])) := by
      rfl
    rw [hwritten, hnames "@m" (by decide), hnames "k" (by decide), hnames "-" (by decide), hnames "/" (by decide)]
    rfl
  have hname : isHostName "m" = true := rfl
  obtain ⟨f, hf, n, hn, hwritten⟩ := macroCall_returns hname hargs
  obtain rfl : f = form := Except.ok.inj ((hf false).symm.trans hform)
  exact ⟨rfl, hargs, hform, n, hn false, hwritten false⟩

end Bilisp
