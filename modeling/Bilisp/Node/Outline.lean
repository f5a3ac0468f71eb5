import Bilisp.Node.Basic

/-!
# Outlines of host programs

An outline shows a node on a line of its own, its fields below it and further in. Names stand on the line of
their node; absent fields are left out.
-/

namespace Bilisp.Node

/-- One line of an outline. -/
def outlineLine (depth : Nat) (t : Text) : Text := List.replicate (2 * depth) ' ' ++ t ++ "\n"

/-- A field of a node at some depth, over the outline of what it holds. -/
def outlineField (depth : Nat) (name content : Text) : Text :=
  outlineLine (depth + 1) (name ++ ":") ++ content

mutual

/-- The outline of a node, indented to a depth. -/
def outline (d : Nat) : Node → Text
  | .literal value => outlineLine d ("Literal(" ++ value.display ++ ")")
  | .identifier name => outlineLine d ("Identifier " ++ name)
  | .quote value => outlineLine d "Quote" ++ outlineField d "value" (outline (d + 2) value)
  | .interpolate value => outlineLine d "Interpolate" ++ outlineField d "value" (outline (d + 2) value)
  | .call callee args =>
    outlineLine d "Call" ++ outlineField d "callee" (outline (d + 2) callee) ++
      outlineField d "args" (outlineAll (d + 2) args)
  | .comparison operands =>
    outlineLine d "Comparison" ++ outlineField d "operands" (outlineAll (d + 2) operands)
  | .ifThen condition thenBranch =>
    outlineLine d "If" ++ outlineField d "condition" (outline (d + 2) condition) ++
      outlineField d "then" (outline (d + 2) thenBranch)
  | .ifElse condition thenBranch elseBranch =>
    outlineLine d "If" ++ outlineField d "condition" (outline (d + 2) condition) ++
      outlineField d "then" (outline (d + 2) thenBranch) ++
      outlineField d "otherwise" (outline (d + 2) elseBranch)
  | .block body => outlineLine d "Block" ++ outlineField d "body" (outlineAll (d + 2) body)
  | .letBlock bindings body =>
    outlineLine d "Let" ++ outlineField d "bindings" (outlineAll (d + 2) bindings) ++
      outlineField d "body" (outline (d + 2) body)
  | .function name params body =>
    outlineLine d "FunctionDef" ++ outlineField d "name" (outline (d + 2) name) ++
      outlineField d "params" (outlineAll (d + 2) params) ++
      outlineField d "body" (outline (d + 2) body)
  | .anonymous params body =>
    outlineLine d "FunctionDef" ++ outlineField d "params" (outlineAll (d + 2) params) ++
      outlineField d "body" (outline (d + 2) body)
  | .lambda params body =>
    outlineLine d "Lambda" ++ outlineField d "params" (outlineAll (d + 2) params) ++
      outlineField d "body" (outline (d + 2) body)
  | .bareLambda param body =>
    outlineLine d "Lambda" ++ outlineField d "params" (outline (d + 2) param) ++
      outlineField d "body" (outline (d + 2) body)
  | .assignment target value =>
    outlineLine d "Assignment" ++ outlineField d "target" (outline (d + 2) target) ++
      outlineField d "value" (outline (d + 2) value)
  | .importNames args => outlineLine d "Import" ++ outlineField d "args" (outlineAll (d + 2) args)
  | .usingNames args => outlineLine d "Using" ++ outlineField d "args" (outlineAll (d + 2) args)
  | .exportNames args => outlineLine d "Export" ++ outlineField d "args" (outlineAll (d + 2) args)
  | .subscript collection indices =>
    outlineLine d "Ref" ++ outlineField d "collection" (outline (d + 2) collection) ++
      outlineField d "indices" (outlineAll (d + 2) indices)
  | .range parts => outlineLine d "Range" ++ outlineField d "parts" (outlineAll (d + 2) parts)
  | .dotAccess base field => outlineLine d ("DotAccess ." ++ field) ++ outline (d + 1) base
  | .ascription operands =>
    outlineLine d "TypeAscription" ++ outlineField d "operands" (outlineAll (d + 2) operands)
  | .curly args => outlineLine d "Curly" ++ outlineField d "args" (outlineAll (d + 2) args)
  | .macroCall name args => outlineLine d ("MacroCall " ++ name) ++ outlineAll (d + 1) args
  | .moduleBlock name body =>
    outlineLine d "Module" ++ outlineField d "name" (outline (d + 2) name) ++
      outlineField d "body" (outlineAll (d + 2) body)
  | .conjunction args => outlineLine d "And" ++ outlineField d "args" (outlineAll (d + 2) args)
  | .disjunction args => outlineLine d "Or" ++ outlineField d "args" (outlineAll (d + 2) args)
  | .vector items => outlineLine d "Vect" ++ outlineField d "items" (outlineAll (d + 2) items)
  | .tuple items => outlineLine d "Tuple" ++ outlineField d "items" (outlineAll (d + 2) items)
  | .raw head args => outlineLine d ("RawExpr " ++ head) ++ outlineAll (d + 1) args

/-- The outlines of several nodes, one below the other. -/
def outlineAll (d : Nat) : List Node → Text
  | [] => []
  | node :: rest => outline d node ++ outlineAll d rest

end

end Bilisp.Node
