import Templating.Expr.Basic

/-!
# Expressions as documents

The JSON form of an expression tree: an object whose first member, `type`, names the node.
-/

namespace Templating

def Connective.label : Connective → String
  | .and => "And"
  | .or => "Or"

def Comparison.label : Comparison → String
  | .strictEq => "StrictEq"
  | .strictNe => "StrictNe"
  | .eq => "Eq"
  | .ne => "Ne"
  | .le => "Le"
  | .ge => "Ge"
  | .lt => "Lt"
  | .gt => "Gt"

def Json.node (type : String) (members : List (String × Json)) : Json :=
  .object (("type", .string type) :: members)

namespace Expr

mutual

def toJson : Expr → Json
  | .literal value => .node "Literal" [("value", value.toJson)]
  | .array items => .node "Array" [("items", .array (toJsonItems items))]
  | .variable name accessors =>
    .node "Variable" [("name", .string name), ("accessors", .array (toJsonItems accessors))]
  | .call name args => .node "Call" [("name", .string name), ("args", .array (toJsonItems args))]
  | .negation operand => .node "Not" [("operand", toJson operand)]
  | .logical op left right =>
    .node "Logical" [("op", .string op.label), ("left", toJson left), ("right", toJson right)]
  | .comparison op left right =>
    .node "Compare" [("op", .string op.label), ("left", toJson left), ("right", toJson right)]
  | .invalid source => .node "Invalid" [("source", .string source)]

def toJsonItems : List Expr → List Json
  | [] => []
  | e :: es => toJson e :: toJsonItems es

end

end Expr

end Templating
