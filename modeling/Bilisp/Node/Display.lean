import Bilisp.Node.Basic

/-!
# Showing nodes in messages

A message shows a node as its kind with its named fields in parentheses, and a list of nodes in parentheses of
its own.
-/

namespace Bilisp.Node

/-- A kind with its fields. -/
def record (kind : Text) (fields : List (Text × Text)) : Text :=
  kind ++ "(" ++ Text.join ", " (fields.map fun (name, value) => name ++ "=" ++ value) ++ ")"

/-- Shown nodes in parentheses; a single one is followed by a comma. -/
def series : List Text → Text
  | [one] => "(" ++ one ++ ",)"
  | shown => "(" ++ Text.join ", " shown ++ ")"

mutual

/-- A node as a message shows it. -/
def display : Node → Text
  | .literal value => record "Literal" [("value", value.display)]
  | .identifier name => record "Identifier" [("name", name.quoted)]
  | .quote value => record "Quote" [("value", display value)]
  | .interpolate value => record "Interpolate" [("value", display value)]
  | .call callee args =>
    record "Call" [("callee", display callee), ("args", series (displayAll args))]
  | .comparison operands => record "Comparison" [("operands", series (displayAll operands))]
  | .ifThen condition thenBranch =>
    record "If" [("condition", display condition), ("then", display thenBranch), ("otherwise", "None")]
  | .ifElse condition thenBranch elseBranch =>
    record "If" [("condition", display condition), ("then", display thenBranch),
      ("otherwise", display elseBranch)]
  | .block body => record "Block" [("body", series (displayAll body))]
  | .letBlock bindings body =>
    record "Let" [("bindings", series (displayAll bindings)), ("body", display body)]
  | .function name params body =>
    record "FunctionDef" [("name", display name), ("params", series (displayAll params)),
      ("body", display body)]
  | .anonymous params body =>
    record "FunctionDef" [("name", "None"), ("params", series (displayAll params)),
      ("body", display body)]
  | .lambda params body =>
    record "Lambda" [("params", series (displayAll params)), ("body", display body)]
  | .bareLambda param body => record "Lambda" [("params", display param), ("body", display body)]
  | .assignment target value =>
    record "Assignment" [("target", display target), ("value", display value)]
  | .importNames args => record "Import" [("args", series (displayAll args))]
  | .usingNames args => record "Using" [("args", series (displayAll args))]
  | .exportNames args => record "Export" [("args", series (displayAll args))]
  | .subscript collection indices =>
    record "Ref" [("collection", display collection), ("indices", series (displayAll indices))]
  | .range parts => record "Range" [("parts", series (displayAll parts))]
  | .dotAccess base field => record "DotAccess" [("base", display base), ("field", field.quoted)]
  | .ascription operands => record "TypeAscription" [("operands", series (displayAll operands))]
  | .curly args => record "Curly" [("args", series (displayAll args))]
  | .macroCall name args =>
    record "MacroCall" [("name", name.quoted), ("args", series (displayAll args))]
  | .moduleBlock name body =>
    record "Module" [("name", display name), ("body", series (displayAll body))]
  | .conjunction args => record "And" [("args", series (displayAll args))]
  | .disjunction args => record "Or" [("args", series (displayAll args))]
  | .vector items => record "Vect" [("items", series (displayAll items))]
  | .tuple items => record "Tuple" [("items", series (displayAll items))]
  | .raw head args => record "RawExpr" [("head", head.quoted), ("args", series (displayAll args))]

/-- Several nodes as a message shows them. -/
def displayAll : List Node → List Text
  | [] => []
  | node :: rest => display node :: displayAll rest

end

end Bilisp.Node
