import Templating.Value.Output

/-!
# Looking into values

`lookup? v key` goes one level down: into a map by the text of the key, into a list by its index.
A key of another kind, or one that is not there, finds nothing.
-/

namespace Templating.Value

def clampInt64 (n : Int) : Int :=
  max Number.minInt64 (min Number.maxInt64 n)

/-- The map key that a value names. Doubles lose their fraction, truth values are `1` and `0`, null
is the empty key, and integers are held to 64 bits with sign. -/
def keyText? : Value → Option String
  | .text s => some s
  | .number (.int n) => some (Number.intText (clampInt64 n))
  | .number (.float x) => some (Number.intText (clampInt64 x.truncate))
  | .bool b => some (if b then "1" else "0")
  | .null => some ""
  | .list _ => none
  | .map _ => none

/-- The index that a text writes: digits, a plus sign before them allowed, within 64 bits. -/
def readIndex? (s : String) : Option Nat :=
  let ds := match s.toList with
    | '+' :: cs => cs
    | cs => cs
  (Number.readDigits? ds).filter fun n => (n : Int) ≤ Number.maxUInt64

def keyIndex? : Value → Option Nat
  | .number (.int n) => if 0 ≤ n then some n.toNat else none
  | .number (.float _) => none
  | .text s => readIndex? s
  | .bool b => some b.toNat
  | .null => none
  | .list _ => none
  | .map _ => none

def lookup? (v key : Value) : Option Value :=
  match v with
  | .map entries => (keyText? key).bind (Entries.find? · entries)
  | .list items => (keyIndex? key).bind (items[·]?)
  | _ => none

def lookupAll? (v : Value) : List Value → Option Value
  | [] => some v
  | key :: keys => (v.lookup? key).bind (lookupAll? · keys)

end Templating.Value
