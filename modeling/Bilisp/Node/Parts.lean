import Bilisp.Diagnostic.Basic

/-!
# Expression heads

The host can look at a compound node as a head with parts in order. A function shows its signature as a call
or a tuple, a module its body as a block, a field access its field as a quoted name, and a block of bindings
its body before the bindings.
-/

namespace Bilisp.Node

/-- The name of the kind of a node. -/
def kind : Node → Text
  | .literal _ => "Literal"
  | .identifier _ => "Identifier"
  | .quote _ => "Quote"
  | .interpolate _ => "Interpolate"
  | .call _ _ => "Call"
  | .comparison _ => "Comparison"
  | .ifThen _ _ | .ifElse _ _ _ => "If"
  | .block _ => "Block"
  | .letBlock _ _ => "Let"
  | .function _ _ _ | .anonymous _ _ => "FunctionDef"
  | .lambda _ _ | .bareLambda _ _ => "Lambda"
  | .assignment _ _ => "Assignment"
  | .importNames _ => "Import"
  | .usingNames _ => "Using"
  | .exportNames _ => "Export"
  | .subscript _ _ => "Ref"
  | .range _ => "Range"
  | .dotAccess _ _ => "DotAccess"
  | .ascription _ => "TypeAscription"
  | .curly _ => "Curly"
  | .macroCall _ _ => "MacroCall"
  | .moduleBlock _ _ => "Module"
  | .conjunction _ => "And"
  | .disjunction _ => "Or"
  | .vector _ => "Vect"
  | .tuple _ => "Tuple"
  | .raw _ _ => "RawExpr"

/-- The head of a compound node. -/
def head? : Node → Option Text
  | .literal _ | .identifier _ => none
  | .quote _ => some "quote"
  | .interpolate _ => some "$"
  | .call _ _ => some "call"
  | .comparison _ => some "comparison"
  | .ifThen _ _ | .ifElse _ _ _ => some "if"
  | .block _ => some "block"
  | .letBlock _ _ => some "let"
  | .function _ _ _ | .anonymous _ _ => some "function"
  | .lambda _ _ | .bareLambda _ _ => some "->"
  | .assignment _ _ => some "="
  | .importNames _ => some "import"
  | .usingNames _ => some "using"
  | .exportNames _ => some "export"
  | .subscript _ _ => some "ref"
  | .range _ => some ":"
  | .dotAccess _ _ => some "."
  | .ascription _ => some "::"
  | .curly _ => some "curly"
  | .macroCall _ _ => some "macrocall"
  | .moduleBlock _ _ => some "module"
  | .conjunction _ => some "&&"
  | .disjunction _ => some "||"
  | .vector _ => some "vect"
  | .tuple _ => some "tuple"
  | .raw head _ => some head

/-- The parts of a compound node behind its head. -/
def parts : Node → List Node
  | .literal _ | .identifier _ => []
  | .quote value | .interpolate value => [value]
  | .call callee args => callee :: args
  | .comparison operands => operands
  | .ifThen condition thenBranch => [condition, thenBranch]
  | .ifElse condition thenBranch elseBranch => [condition, thenBranch, elseBranch]
  | .block body => body
  | .letBlock bindings body => body :: bindings
  | .function name params body => [.call name params, body]
  | .anonymous params body => [.tuple params, body]
  | .lambda params body => [.tuple params, body]
  | .bareLambda param body => [param, body]
  | .assignment target value => [target, value]
  | .importNames args | .usingNames args | .exportNames args => args
  | .subscript collection indices => collection :: indices
  | .range parts => parts
  | .dotAccess base field => [base, .quote (.identifier field)]
  | .ascription operands => operands
  | .curly args => args
  | .macroCall name args => .identifier name :: args
  | .moduleBlock name body => [name, .block body]
  | .conjunction args | .disjunction args => args
  | .vector items | .tuple items => items
  | .raw _ args => args

/-- The head and the parts of a node, which has to be compound. -/
def expression (n : Node) : Except Fault (Text × List Node) :=
  match n.head? with
  | some head => .ok (head, n.parts)
  | none => .error (.nodeStructure n.kind n "not a compound expression")

end Bilisp.Node
