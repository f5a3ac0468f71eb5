import Bilisp.Form.Printer
import Bilisp.Node.Parts
import Bilisp.Symbol.HostName

/-!
# From host programs to forms

Each kind of node has a form, with the shortest spelling where several would do: paths of fields and types
are written as one symbol, calls that make dictionaries, sets or ratios as literals. Only assignments in the
wrong place, comparisons and ranges of the wrong length, and bindings that bind nothing have no form. The
arguments of a macro call are written in quoted mode, where every other compound node is a list of its head
and its parts.
-/

namespace Bilisp

/-! ## Atoms -/

/-- The form of a name: a symbol, or nil for the name of no value. -/
def nameForm (name : Text) : Form :=
  if name = Node.nothingName then .nil else .symbol (unescapeSymbol name)

/-- The form of a quoted name: a keyword, in which the name of no value stays as it is. -/
def keywordForm (name : Text) : Form :=
  .atom (.keyword (if name = Node.nothingName then name else unescapeSymbol name)) none

/-- The form of a literal. -/
def Literal.form : Literal → Form
  | .nothing => .nil
  | .boolean value => .atom (.boolean value) none
  | .number value => .atom (.number value) none
  | .string value => .atom (.string value) none
  | .character value => .atom (.character [value]) none

/-! ## Spellings of compound forms -/

/-- The ratio that a call of `//` with two integers makes. -/
def ratio? : Node → List Node → Option Rat
  | .identifier name, [.literal (.number (.int num)), .literal (.number (.int den))] =>
    if name = "//".toList ∧ den ≠ 0 then some (Rat.divInt num den) else none
  | _, _ => none

/-- The shape of the literal that a call makes: a map or a set, if any. -/
def literalShape? (callee : Node) (args : List Node) : Option Shape :=
  if (Node.dictPairs? (.call callee args)).isSome then some .map
  else if (Node.setItems? (.call callee args)).isSome then some .set
  else none

/-- The form of a field of a form. Fields of fields share one symbol. -/
def fieldForm (base : Form) (field : Text) : Form :=
  match base with
  | .atom (.symbol name) _ =>
    if hasAscription name then .headed "." [base, .symbol field]
    else .symbol (name ++ "." ++ field)
  | .compound .list [.atom (.symbol head) place, inner, .atom (.symbol last) _] _ =>
    if head = ".".toList then
      .list [.atom (.symbol head) place, inner, .symbol (last ++ "." ++ field)]
    else .headed "." [base, .symbol field]
  | _ => .headed "." [base, .symbol field]

/-- The names of nodes, if all of them are identifiers. -/
def identifierNames? : List Node → Option (List Text)
  | [] => some []
  | .identifier name :: rest => (identifierNames? rest).map (name :: ·)
  | _ => none

/-- One symbol for an ascription, where there is one: names joined by `::`, or a symbol without `::` and
the name of its type. -/
def ascriptionSymbol? (operands : List Node) (forms : List Form) : Option Form :=
  match identifierNames? operands with
  | some [] => none
  | some [name] => some (.symbol ("::" ++ unescapeSymbol name))
  | some names => some (.symbol (Text.join "::" (names.map unescapeSymbol)))
  | none =>
    match operands, forms with
    | [_, .identifier type], .atom (.symbol name) _ :: _ =>
      if hasAscription name then none else some (.symbol (name ++ "::" ++ unescapeSymbol type))
    | _, _ => none

/-- The form of an ascription of which the operands have the given forms. -/
def ascriptionForm (operands : List Node) (forms : List Form) : Form :=
  (ascriptionSymbol? operands forms).getD (.headed "::" forms)

/-- The body of a definition: the statements of a `do` list, or one form. -/
def splicedBody : Form → List Form
  | .compound .list (.atom (.symbol name) place :: body) span =>
    if name = "do".toList then body
    else [.compound .list (.atom (.symbol name) place :: body) span]
  | f => [f]

/-! ## Nodes -/

mutual

/-- The form of a node. Only a node at top level becomes a definition. -/
def Node.toForm (topLevel : Bool) : Node → Except Fault Form
  | .literal value => return value.form
  | .identifier name => return nameForm name
  | .quote (.identifier name) => return keywordForm name
  | .quote value => return .headed "quote" [← Node.toForm false value]
  | .interpolate value => return .headed "unquote" [← Node.toForm false value]
  | .call callee args =>
    match ratio? callee args with
    | some ratio => return .atom (.number (.ratio ratio)) none
    | none =>
      match literalShape? callee args with
      | some .map => return .compound .map (← Node.toEntryForms args) none
      | some _ => return .compound .set (← Node.toItemForms args) none
      | none => return .list ((← Node.toForm false callee) :: (← Node.toForms args))
  | .comparison [left, operator, right] => do
    let operatorForm ← Node.toForm false operator
    return .list [operatorForm, ← Node.toForm false left, ← Node.toForm false right]
  | .comparison operands => throw (.nodeCount "comparison" (.comparison operands) "3" operands.length)
  | .ifThen condition thenBranch =>
    return .headed "if" [← Node.toForm false condition, ← Node.toForm false thenBranch]
  | .ifElse condition thenBranch elseBranch =>
    return .headed "if" [← Node.toForm false condition, ← Node.toForm false thenBranch,
      ← Node.toForm false elseBranch]
  | .block [] => return .nil
  | .block [only] => Node.toForm false only
  | .block body => return .headed "do" (← Node.toForms body)
  | .letBlock bindings body =>
    return .headed "let" [.vector (← Node.toBindingForms bindings), ← Node.toForm false body]
  | .function name params body => do
    let nameForm ← Node.toForm false name
    let paramForms ← Node.toForms params
    return .headed (if topLevel then "defn" else "fn")
      (nameForm :: .vector paramForms :: splicedBody (← Node.toForm false body))
  | .anonymous params body => do
    let paramForms ← Node.toForms params
    return .headed "fn" (.vector paramForms :: splicedBody (← Node.toForm false body))
  | .lambda params body =>
    return .headed "fn" [.vector (← Node.toForms params), ← Node.toForm false body]
  | .bareLambda param body =>
    return .headed "fn" [.vector [← Node.toForm false param], ← Node.toForm false body]
  | .assignment target value => do
    if !topLevel then
      throw (.nodeStructure "assignment" (.assignment target value)
        "only top-level assignments become definitions")
    return .headed "def" [← Node.toForm false target, ← Node.toForm false value]
  | .importNames args => return .headed "import" (← Node.toForms args)
  | .usingNames args => return .headed "use" (← Node.toForms args)
  | .exportNames args => return .headed "export" (← Node.toForms args)
  | .subscript collection indices =>
    return .headed "aget" ((← Node.toForm false collection) :: (← Node.toForms indices))
  | .range [start, .identifier name] => do
    let startForm ← Node.toForm false start
    return .headed ":" (startForm :: if name = "end".toList then [] else [nameForm name])
  | .range parts => do
    if parts.length < 2 || 3 < parts.length then
      throw (.nodeCount "range" (.range parts) "2 to 3" parts.length)
    return .headed ":" (← Node.toForms parts)
  | .dotAccess base field => return fieldForm (← Node.toForm false base) (unescapeSymbol field)
  | .ascription operands => return ascriptionForm operands (← Node.toForms operands)
  | .curly args => return .headed "curly" (← Node.toForms args)
  | .macroCall name args => return .list (nameForm name :: (← Node.toQuotedForms args))
  | .moduleBlock name body =>
    return .headed "module" ((← Node.toForm false name) :: (← Node.toTopForms body))
  | .conjunction args => return .headed "and" (← Node.toForms args)
  | .disjunction args => return .headed "or" (← Node.toForms args)
  | .vector items => return .vector (← Node.toForms items)
  | .tuple [] => return .list []
  | .tuple items => return .headed "tuple" (← Node.toForms items)
  | .raw head args => return .list (nameForm head :: (← Node.toForms args))

/-- The forms of nodes inside another node. -/
def Node.toForms : List Node → Except Fault (List Form)
  | [] => return []
  | node :: rest => return (← Node.toForm false node) :: (← Node.toForms rest)

/-- The forms of the nodes of a module. -/
def Node.toTopForms : List Node → Except Fault (List Form)
  | [] => return []
  | node :: rest => return (← Node.toForm true node) :: (← Node.toTopForms rest)

/-- The forms of the keys and values of dictionary entries. -/
def Node.toEntryForms : List Node → Except Fault (List Form)
  | .call _ [key, value] :: rest => do
    let keyForm ← Node.toForm false key
    let valueForm ← Node.toForm false value
    return keyForm :: valueForm :: (← Node.toEntryForms rest)
  | _ => return []

/-- The forms of the items of a set, which are the items of one vector. -/
def Node.toItemForms : List Node → Except Fault (List Form)
  | [.vector items] => Node.toForms items
  | _ => return []

/-- The forms of bindings, each a name and a value. A name alone is bound to itself. -/
def Node.toBindingForms : List Node → Except Fault (List Form)
  | [] => return []
  | .assignment target value :: rest => do
    let targetForm ← Node.toForm false target
    let valueForm ← Node.toForm false value
    return targetForm :: valueForm :: (← Node.toBindingForms rest)
  | .identifier name :: rest => return nameForm name :: nameForm name :: (← Node.toBindingForms rest)
  | other :: _ => throw (.nodeStructure "let" other "binding must be an assignment")

/-- The form of a node in quoted mode: a quotation is taken off, collections keep their brackets, and other
compound nodes are lists of their heads and parts. -/
def Node.toQuotedForm : Node → Except Fault Form
  | .literal value => return value.form
  | .identifier name => return nameForm name
  | .quote value => Node.toForm false value
  | .vector items => return .vector (← Node.toQuotedForms items)
  | .tuple items => return .headed "tuple" (← Node.toQuotedForms items)
  | .call callee args =>
    match literalShape? callee args with
    | some .map => return .compound .map (← Node.toQuotedEntryForms args) none
    | some _ => return .compound .set (← Node.toQuotedItemForms args) none
    | none => return .headed "call" ((← Node.toQuotedForm callee) :: (← Node.toQuotedForms args))
  | .interpolate value => return .headed "$" [← Node.toQuotedForm value]
  | .comparison operands => return .headed "comparison" (← Node.toQuotedForms operands)
  | .ifThen condition thenBranch =>
    return .headed "if" [← Node.toQuotedForm condition, ← Node.toQuotedForm thenBranch]
  | .ifElse condition thenBranch elseBranch =>
    return .headed "if" [← Node.toQuotedForm condition, ← Node.toQuotedForm thenBranch,
      ← Node.toQuotedForm elseBranch]
  | .block body => return .headed "block" (← Node.toQuotedForms body)
  | .letBlock bindings body =>
    return .headed "let" ((← Node.toQuotedForm body) :: (← Node.toQuotedForms bindings))
  | .function name params body => do
    let signature ←
      match literalShape? name params with
      | some .map => do pure (Form.compound .map (← Node.toQuotedEntryForms params) none)
      | some _ => do pure (Form.compound .set (← Node.toQuotedItemForms params) none)
      | none => do pure (Form.headed "call" ((← Node.toQuotedForm name) :: (← Node.toQuotedForms params)))
    return .headed "function" [signature, ← Node.toQuotedForm body]
  | .anonymous params body =>
    return .headed "function" [.headed "tuple" (← Node.toQuotedForms params), ← Node.toQuotedForm body]
  | .lambda params body =>
    return .headed "->" [.headed "tuple" (← Node.toQuotedForms params), ← Node.toQuotedForm body]
  | .bareLambda param body =>
    return .headed "->" [← Node.toQuotedForm param, ← Node.toQuotedForm body]
  | .assignment target value =>
    return .headed "=" [← Node.toQuotedForm target, ← Node.toQuotedForm value]
  | .importNames args => return .headed "import" (← Node.toQuotedForms args)
  | .usingNames args => return .headed "using" (← Node.toQuotedForms args)
  | .exportNames args => return .headed "export" (← Node.toQuotedForms args)
  | .subscript collection indices =>
    return .headed "ref" ((← Node.toQuotedForm collection) :: (← Node.toQuotedForms indices))
  | .range parts => return .headed ":" (← Node.toQuotedForms parts)
  | .dotAccess base field => return .headed "." [← Node.toQuotedForm base, nameForm field]
  | .ascription operands => return .headed "::" (← Node.toQuotedForms operands)
  | .curly args => return .headed "curly" (← Node.toQuotedForms args)
  | .macroCall name args => return .headed "macrocall" (nameForm name :: (← Node.toQuotedForms args))
  | .moduleBlock name body =>
    return .headed "module" [← Node.toQuotedForm name, .headed "block" (← Node.toQuotedForms body)]
  | .conjunction args => return .headed "&&" (← Node.toQuotedForms args)
  | .disjunction args => return .headed "||" (← Node.toQuotedForms args)
  | .raw head args => return .list (nameForm head :: (← Node.toQuotedForms args))

/-- The forms of nodes in quoted mode. -/
def Node.toQuotedForms : List Node → Except Fault (List Form)
  | [] => return []
  | node :: rest => return (← Node.toQuotedForm node) :: (← Node.toQuotedForms rest)

/-- The quoted forms of the keys and values of dictionary entries. -/
def Node.toQuotedEntryForms : List Node → Except Fault (List Form)
  | .call _ [key, value] :: rest => do
    let keyForm ← Node.toQuotedForm key
    let valueForm ← Node.toQuotedForm value
    return keyForm :: valueForm :: (← Node.toQuotedEntryForms rest)
  | _ => return []

/-- The quoted forms of the items of a set. -/
def Node.toQuotedItemForms : List Node → Except Fault (List Form)
  | [.vector items] => Node.toQuotedForms items
  | _ => return []

end

/-- The written form of a node. -/
def Node.written (topLevel : Bool) (n : Node) : Except Fault Text :=
  return (← n.toForm topLevel).text

end Bilisp
