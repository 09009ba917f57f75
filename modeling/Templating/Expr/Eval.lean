import Templating.Context
import Templating.Expr.Basic
import Templating.Host.Function
import Templating.Host.Session

/-!
# Evaluation

`eval` gives every expression a value: whatever cannot be computed is null. A condition is an
expression read for its truth (`condition`).
-/

namespace Templating

structure Evaluator where
  functions : Registry
  session : Session

namespace Evaluator

/-- Calls a function with evaluated arguments. Four names have a meaning of their own for their
number of arguments; all else is looked up in the registry, and a failure is null. -/
def apply (ev : Evaluator) (name : String) (args : List Value) : Value :=
  match name, args with
  | "count", [v] => .nat v.count
  | "array_key_exists", [key, v] => .bool (v.lookup? key).isSome
  | "old", [key] => ev.session.old key.toOutput .null
  | "old", [key, default] => ev.session.old key.toOutput default
  | name, args =>
    match ev.functions.call name args with
    | .ok value => value
    | .error _ => .null

mutual

def eval (ev : Evaluator) (ctx : Context) : Expr → Value
  | .literal value => value
  | .array items => .list (evalAll ev ctx items)
  | .variable name accessors => ctx.resolve name (evalAll ev ctx accessors)
  | .call name args => ev.apply name (evalAll ev ctx args)
  | .negation operand => .bool !(eval ev ctx operand).isTruthy
  | .logical .and left right =>
    .bool ((eval ev ctx left).isTruthy && (eval ev ctx right).isTruthy)
  | .logical .or left right =>
    .bool ((eval ev ctx left).isTruthy || (eval ev ctx right).isTruthy)
  | .comparison op left right => .bool (op.holds (eval ev ctx left) (eval ev ctx right))
  | .invalid _ => .null

def evalAll (ev : Evaluator) (ctx : Context) : List Expr → List Value
  | [] => []
  | e :: es => eval ev ctx e :: evalAll ev ctx es

end

def condition (ev : Evaluator) (ctx : Context) (e : Expr) : Bool :=
  (ev.eval ctx e).isTruthy

def output (ev : Evaluator) (ctx : Context) (e : Expr) : String :=
  (ev.eval ctx e).toOutput

end Evaluator

end Templating
