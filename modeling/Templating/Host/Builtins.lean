import Templating.Host.Function
import Templating.Number.Grouped
import Templating.Text.Case
import Templating.Value.Compare

/-!
# Builtin functions

Text, list and number helpers under the names that template authors know. All of them take values
by their output text or by their number, so few arguments are refused; the wrong number of them
always is.
-/

namespace Templating.Builtins

def unary (name : String) (f : Value → Value) : HostFunction
  | [v] => .ok (f v)
  | args => .error (.arity name "1" args.length)

def upperCase : HostFunction :=
  unary "strtoupper" fun v => .text (Text.upper v.toOutput)

def lowerCase : HostFunction :=
  unary "strtolower" fun v => .text (Text.lower v.toOutput)

def upperFirst : HostFunction :=
  unary "ucfirst" fun v => .text (Text.upperFirst v.toOutput)

def byteCount : HostFunction :=
  unary "strlen" fun v => .nat v.toOutput.utf8ByteSize

def jsonEncode : HostFunction :=
  unary "json_encode" fun v => .text v.jsonText

def trim : HostFunction
  | [v] => .ok (.text (Text.trim v.toOutput))
  | [v, chars] =>
    let set := chars.toOutput.toList
    .ok (.text (String.ofList (Text.trimBy (set.contains ·) v.toOutput.toList)))
  | args => .error (.arity "trim" "1 or 2" args.length)

def elements? : Value → Option (List Value)
  | .list items => some items
  | .map entries => some (entries.map (·.2))
  | _ => none

def joinElements (separator : String) (pieces : Value) : Except FunctionError Value :=
  match elements? pieces with
  | some items => .ok (.text (separator.intercalate (items.map Value.toOutput)))
  | none => .error (.invalid "implode" "argument must be a list or map")

def implode : HostFunction
  | [pieces] => joinElements "" pieces
  | [separator, pieces] => joinElements separator.toOutput pieces
  | args => .error (.arity "implode" "1 or 2" args.length)

/-- Whether a list or map holds an element that loosely equals the first argument. -/
def inArray : HostFunction
  | [needle, haystack] =>
    match elements? haystack with
    | some items => .ok (.bool (items.any (·.looseEq needle)))
    | none => .error (.invalid "in_array" "haystack must be a list or map")
  | args => .error (.arity "in_array" "2" args.length)

/-- The number of decimals that a value asks for: its integer part, between none and fifteen. -/
def decimalsOf (v : Value) : Nat :=
  min ((v.toNumber?.getD .zero).truncate).toNat 15

def numberFormat : HostFunction
  | [v] => .ok (.text (Number.grouped (v.toNumber?.getD .zero) 0))
  | [v, d] => .ok (.text (Number.grouped (v.toNumber?.getD .zero) (decimalsOf d)))
  | args => .error (.arity "number_format" "1 or 2" args.length)

def registry : Registry :=
  ⟨[("strtoupper", upperCase), ("strtolower", lowerCase), ("ucfirst", upperFirst), ("trim", trim),
    ("strlen", byteCount), ("implode", implode), ("in_array", inArray),
    ("json_encode", jsonEncode), ("number_format", numberFormat)]⟩

end Templating.Builtins
