import Templating.Text.Blank
import Templating.Value.Basic

/-!
# Values as text, condition and number

`toOutput` is what a template prints for a value, `isTruthy` how a value counts as a condition, and
`toNumber?` the number that a numeric-looking value stands for.
-/

namespace Templating.Value

/-- What a template prints: nothing for null, false, lists and maps, and `1` for true. -/
def toOutput : Value → String
  | .null => ""
  | .bool b => if b then "1" else ""
  | .number n => n.toOutput
  | .text s => s
  | .list _ => ""
  | .map _ => ""

/-- Null, false, the integer zero, the empty text, list and map are false; all else is true, also
every double. -/
def isTruthy : Value → Bool
  | .null => false
  | .bool b => b
  | .number (.int n) => n != 0
  | .number (.float _) => true
  | .text s => s != ""
  | .list items => !items.isEmpty
  | .map entries => !entries.isEmpty

def isNumericChar (c : Char) : Bool :=
  c.isDigit || c == '+' || c == '-' || c == '.' || c == 'e' || c == 'E'

/-- The double that a numeric text writes, blanks around it allowed. -/
def readNumeric? (s : String) : Option Number.Binary64 :=
  let cs := Text.trimBy Text.isBlank s.toList
  if cs.any Char.isDigit && cs.all isNumericChar then Number.readFloat? cs else none

def toNumber? : Value → Option Number.Binary64
  | .number n => n.toBinary64?
  | .text s => readNumeric? s
  | _ => none

def isNumeric (v : Value) : Bool :=
  v.toNumber?.isSome

def count : Value → Nat
  | .list items => items.length
  | .map entries => entries.length
  | _ => 0

end Templating.Value
