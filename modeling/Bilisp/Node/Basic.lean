import Bilisp.Literal.Basic

/-!
# Host programs

The syntax tree of the host, an expression language with modules, macros and quoted code. An identifier names
a variable or an operator; quoting an identifier gives a keyword.
-/

namespace Bilisp

/-- A node of a host program. A conditional may lack its second branch and a function its name; an arrow
function takes a list of parameters or one parameter without parentheses. -/
inductive Node where
  | literal (value : Literal)
  | identifier (name : Text)
  | quote (value : Node)
  | interpolate (value : Node)
  | call (callee : Node) (args : List Node)
  | comparison (operands : List Node)
  | ifThen (condition thenBranch : Node)
  | ifElse (condition thenBranch elseBranch : Node)
  | block (body : List Node)
  | letBlock (bindings : List Node) (body : Node)
  | function (name : Node) (params : List Node) (body : Node)
  | anonymous (params : List Node) (body : Node)
  | lambda (params : List Node) (body : Node)
  | bareLambda (param body : Node)
  | assignment (target value : Node)
  | importNames (args : List Node)
  | usingNames (args : List Node)
  | exportNames (args : List Node)
  | subscript (collection : Node) (indices : List Node)
  | range (parts : List Node)
  | dotAccess (base : Node) (field : Text)
  | ascription (operands : List Node)
  | curly (args : List Node)
  | macroCall (name : Text) (args : List Node)
  | moduleBlock (name : Node) (body : List Node)
  | conjunction (args : List Node)
  | disjunction (args : List Node)
  | vector (items : List Node)
  | tuple (items : List Node)
  | raw (head : Text) (args : List Node)

namespace Node

/-- The identifier that the host reads as no value. -/
def nothingName : Text := "nothing"

/-- The keyword of a name. -/
def keyword (name : Text) : Node := .quote (.identifier name)

/-- Neighbours in a list taken as the keys and values of a dictionary. -/
def entries : List Node → List Node
  | key :: value :: rest => .call (.identifier "=>") [key, value] :: entries rest
  | _ => []

/-- The call that makes a dictionary of alternating keys and values. -/
def dictionary (nodes : List Node) : Node := .call (.identifier "Dict") (entries nodes)

/-- The call that makes a set. -/
def setOf (items : List Node) : Node := .call (.identifier "Set") [.vector items]

/-- Statements as one node: nothing, the statement itself, or a block. -/
def sequence : List Node → Node
  | [] => .literal .nothing
  | [node] => node
  | body => .block body

/-- The keys and values of `key => value` calls, if all of the nodes are such calls. -/
def entryPairs? : List Node → Option (List (Node × Node))
  | [] => some []
  | .call (.identifier arrow) [key, value] :: rest =>
    if arrow = "=>".toList then (entryPairs? rest).map ((key, value) :: ·) else none
  | _ => none

/-- The keys and values of a call that makes a dictionary. -/
def dictPairs? : Node → Option (List (Node × Node))
  | .call (.identifier name) args => if name = "Dict".toList then entryPairs? args else none
  | _ => none

/-- The items of a call that makes a set of a vector. -/
def setItems? : Node → Option (List Node)
  | .call (.identifier name) [.vector items] => if name = "Set".toList then some items else none
  | _ => none

end Node

end Bilisp
