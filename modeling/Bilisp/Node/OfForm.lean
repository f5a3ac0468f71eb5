import Bilisp.Diagnostic.Basic
import Bilisp.Symbol.HostName

/-!
# From forms to host programs

A list is converted by the symbol that leads it: a special form has its own rule, a name that begins with
`@` makes a macro call, and everything else is a call. The arguments of a macro call are converted in quoted
mode, where lists stay unevaluated. A rule first checks the number and the shape of its parts and then
converts them from left to right, so the fault of a list comes before the faults inside it; only a module
converts its name last, and a function checks its parameters after its name.
-/

namespace Bilisp

/-- The lists that have a rule of their own. -/
inductive SpecialForm where
  | sequence
  | conditional
  | quoting (name : Text)
  | unquoting
  | splicing
  | tuple
  | letBlock
  | function
  | namedFunction
  | definition
  | subscript
  | range
  | moduleBlock
  | importing
  | using
  | exporting
  | access
  | ascription
  | curly
  | conjunction
  | disjunction
deriving DecidableEq

/-- The special forms by the symbols that lead them. -/
def specialForms : List (Text × SpecialForm) :=
  [("do", .sequence), ("if", .conditional), ("quote", .quoting "quote"),
   ("quasiquote", .quoting "quasiquote"), ("unquote", .unquoting), ("unquote-splicing", .splicing),
   ("tuple", .tuple), ("let", .letBlock), ("fn", .function), ("defn", .namedFunction),
   ("def", .definition), ("aget", .subscript), (":", .range), ("module", .moduleBlock),
   ("import", .importing), ("use", .using), ("export", .exporting), (".", .access),
   ("::", .ascription), ("curly", .curly), ("and", .conjunction), ("or", .disjunction)]

/-- The special form that a symbol leads. -/
def SpecialForm.ofName? (name : Text) : Option SpecialForm := Text.assoc? specialForms name

/-! ## Atoms -/

/-- A path as field accesses from left to right, or no node if a segment is empty. -/
def pathNode? (name : Text) : Option Node :=
  match splitPath name with
  | [] => none
  | base :: fields =>
    if (base :: fields).any List.isEmpty then none
    else some (fields.foldl (fun node field => .dotAccess node (escapeSymbol field))
      (.identifier (escapeSymbol base)))

/-- The nodes of the parts that `::` joins. One empty part in front does not count. -/
def ascribedParts (name : Text) : List Text :=
  match splitAscription name with
  | [] :: parts => parts
  | parts => parts

/-- The node of a symbol, or no node if a segment of its path is empty. -/
def symbolNode? (name : Text) : Option Node :=
  if isOperator name then some (.identifier name)
  else if hasAscription name then ((ascribedParts name).mapM pathNode?).map .ascription
  else pathNode? name

/-- The node of an atom. -/
def atomNode (value : Atom) (span : Option Span) : Except Fault Node :=
  match value with
  | .symbol name =>
    match symbolNode? name with
    | some node => .ok node
    | none => .error (.structureOf "symbol" (.atom value span) "empty name segment")
  | .keyword name => .ok (.keyword (escapeSymbol name))
  | .string text => .ok (.literal (.string text))
  | .character text =>
    match Literal.ofText text with
    | .ok literal => .ok (.literal literal)
    | .error e => .error (.literal e)
  | .number number => .ok (.literal (.number number))
  | .nil => .ok (.literal .nothing)
  | .boolean truth => .ok (.literal (.boolean truth))

/-! ## Lists -/

/-- Whether a form can be called: a symbol, or a compound form. -/
def Form.isCallable : Form → Bool
  | .atom (.symbol _) _ => true
  | .atom _ _ => false
  | .compound _ _ _ => true

/-- Neighbours in a list taken as assignments of values to names. -/
def assignments : List Node → List Node
  | target :: value :: rest => .assignment target value :: assignments rest
  | _ => []

/-- Nodes as the parts of a range; a range of one part is open-ended. -/
def rangeOf : List Node → Node
  | [first] => .range [first, .identifier "end"]
  | parts => .range parts

/-- The fault of a map or a binding vector in which the forms do not come in pairs. -/
def oddCount (kind : Text) (f : Form) (count : Nat) : Fault :=
  .countOf kind f "an even number of" count

mutual

/-- The node of a form. Definitions are allowed at top level only. -/
def Form.toNode (topLevel : Bool) : Form → Except Fault Node
  | .atom value span => atomNode value span
  | .compound .vector elements _ => return .vector (← Form.toNodes elements)
  | .compound .map elements span => do
    if elements.length % 2 = 1 then
      throw (oddCount "map" (.compound .map elements span) elements.length)
    return .dictionary (← Form.toNodes elements)
  | .compound .set elements _ => return .setOf (← Form.toNodes elements)
  | .compound .list [] _ => return .tuple []
  | .compound .list (first :: args) span =>
    let whole : Form := .compound .list (first :: args) span
    match whole.head? with
    | some name =>
      match SpecialForm.ofName? name with
      | some special => Form.toSpecialNode topLevel whole special (first :: args)
      | none =>
        if name.head? = some '@' ∧ 1 < name.length then
          return .macroCall (escapeSymbol name) (← Form.toQuotedNodes args)
        else return .call (← Form.toNode false first) (← Form.toNodes args)
    | none =>
      if first.isCallable then return .call (← Form.toNode false first) (← Form.toNodes args)
      else throw (.structureOf "call" whole "head of a call must be a symbol or a form")

/-- The nodes of forms inside another form. -/
def Form.toNodes : List Form → Except Fault (List Node)
  | [] => return []
  | f :: rest => return (← Form.toNode false f) :: (← Form.toNodes rest)

/-- The nodes of the forms of a module. -/
def Form.toTopNodes : List Form → Except Fault (List Node)
  | [] => return []
  | f :: rest => return (← Form.toNode true f) :: (← Form.toTopNodes rest)

/-- The node of a special form, of which the elements of the list are given. -/
def Form.toSpecialNode (topLevel : Bool) (whole : Form) : SpecialForm → List Form → Except Fault Node
  | _, [] => return .tuple []
  | .sequence, _ :: args => return .sequence (← Form.toNodes args)
  | .conditional, [_, condition, thenForm] =>
    return .ifThen (← Form.toNode false condition) (← Form.toNode false thenForm)
  | .conditional, [_, condition, thenForm, elseForm] =>
    return .ifElse (← Form.toNode false condition) (← Form.toNode false thenForm)
      (← Form.toNode false elseForm)
  | .conditional, elements => throw (.countOf "if" whole "3 to 4" elements.length)
  | .quoting _, [_, inner] => return .quote (← Form.toNode false inner)
  | .quoting name, elements => throw (.countOf name whole "2" elements.length)
  | .unquoting, [_, inner] => return .interpolate (← Form.toNode false inner)
  | .unquoting, elements => throw (.countOf "unquote" whole "2" elements.length)
  | .splicing, _ => throw (.structureOf "unquote-splicing" whole "splicing unquote is not supported")
  | .tuple, _ :: args => return .tuple (← Form.toNodes args)
  | .letBlock, _ :: .compound .vector bindings span :: body => do
    if bindings.length % 2 = 1 then
      throw (oddCount "let bindings" (.compound .vector bindings span) bindings.length)
    return .letBlock (assignments (← Form.toNodes bindings)) (.sequence (← Form.toNodes body))
  | .letBlock, _ :: other :: _ => throw (.structureOf "let" other "bindings must be a vector")
  | .letBlock, elements => throw (.countOf "let" whole "at least 2" elements.length)
  | .function, _ :: .compound .vector params _ :: body =>
    return .lambda (← Form.toNodes params) (.sequence (← Form.toNodes body))
  | .function, _ :: name :: .compound .vector params _ :: body =>
    return .function (← Form.toNode false name) (← Form.toNodes params) (.sequence (← Form.toNodes body))
  | .function, _ :: name :: other :: _ => do
    let _ ← Form.toNode false name
    throw (.structureOf "fn" other "expected a parameter vector")
  | .function, [_, _] => throw (.countOf "fn" whole "at least 3" 2)
  | .function, elements => throw (.countOf "fn" whole "at least 2" elements.length)
  | .namedFunction, _ :: name :: .compound .vector params _ :: body =>
    return .function (← Form.toNode false name) (← Form.toNodes params) (.sequence (← Form.toNodes body))
  | .namedFunction, _ :: name :: other :: _ => do
    let _ ← Form.toNode false name
    throw (.structureOf "defn" other "expected a parameter vector")
  | .namedFunction, elements => throw (.countOf "defn" whole "at least 3" elements.length)
  | .definition, [_, target, value] => do
    if !topLevel then throw (.structureOf "def" whole "definitions are only allowed at top level")
    return .assignment (← Form.toNode false target) (← Form.toNode false value)
  | .definition, elements => throw (.countOf "def" whole "3" elements.length)
  | .subscript, _ :: collection :: indices =>
    return .subscript (← Form.toNode false collection) (← Form.toNodes indices)
  | .subscript, elements => throw (.countOf "aget" whole "at least 2" elements.length)
  | .range, _ :: args => do
    if args.isEmpty || 3 < args.length then throw (.countOf "range" whole "2 to 4" (args.length + 1))
    return rangeOf (← Form.toNodes args)
  | .moduleBlock, _ :: name :: body => do
    let nodes ← Form.toTopNodes body
    return .moduleBlock (← Form.toNode false name) nodes
  | .moduleBlock, elements => throw (.countOf "module" whole "at least 2" elements.length)
  | .importing, _ :: args => do
    if args.isEmpty then throw (.countOf "import" whole "at least 2" 1)
    return .importNames (← Form.toNodes args)
  | .using, _ :: args => do
    if args.isEmpty then throw (.countOf "use" whole "at least 2" 1)
    return .usingNames (← Form.toNodes args)
  | .exporting, _ :: args => do
    if args.isEmpty then throw (.countOf "export" whole "at least 2" 1)
    return .exportNames (← Form.toNodes args)
  | .access, [_, base, .atom (.symbol name) span] => do
    let fields := splitPath name
    if fields.any List.isEmpty then
      throw (.structureOf "." (.atom (.symbol name) span) "empty field name")
    return fields.foldl (fun node field => .dotAccess node (escapeSymbol field))
      (← Form.toNode false base)
  | .access, [_, _, field] => throw (.structureOf "." field "field must be a symbol")
  | .access, elements => throw (.countOf "." whole "3" elements.length)
  | .ascription, _ :: args => do
    if args.isEmpty then throw (.countOf "::" whole "at least 2" 1)
    return .ascription (← Form.toNodes args)
  | .curly, _ :: args => do
    if args.isEmpty then throw (.countOf "curly" whole "at least 2" 1)
    return .curly (← Form.toNodes args)
  | .conjunction, _ :: args => return .conjunction (← Form.toNodes args)
  | .disjunction, _ :: args => return .disjunction (← Form.toNodes args)

/-- The node of a form in quoted mode: a quotation is taken off, and other lists stay unevaluated. -/
def Form.toQuotedNode : Form → Except Fault Node
  | .atom (.keyword name) _ => return .identifier (escapeSymbol name)
  | .atom value span => atomNode value span
  | .compound .vector elements _ => return .vector (← Form.toQuotedNodes elements)
  | .compound .map elements span => do
    if elements.length % 2 = 1 then
      throw (oddCount "map" (.compound .map elements span) elements.length)
    return .dictionary (← Form.toQuotedNodes elements)
  | .compound .set elements _ => return .setOf (← Form.toQuotedNodes elements)
  | .compound .list [] _ => return .tuple []
  | .compound .list (.atom (.symbol name) place :: args) span =>
    if name = "quote".toList then
      match args with
      | [inner] => Form.toNode false inner
      | _ =>
        throw (.countOf "quote" (.compound .list (.atom (.symbol name) place :: args) span) "2"
          (args.length + 1))
    else if name = "tuple".toList then return .tuple (← Form.toQuotedNodes args)
    else return .raw (escapeSymbol name) (← Form.toQuotedNodes args)
  | .compound .list elements _ => return .raw "call" (← Form.toQuotedNodes elements)

/-- The nodes of forms in quoted mode. -/
def Form.toQuotedNodes : List Form → Except Fault (List Node)
  | [] => return []
  | f :: rest => return (← Form.toQuotedNode f) :: (← Form.toQuotedNodes rest)

end

end Bilisp
