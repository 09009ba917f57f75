import Templating.Value.Output

/-!
# Comparing values

`strictEq` asks for the same kind and the same value. `looseEq` compares as numbers what looks like
numbers, then by truth when one side is a truth value or null, then item by item or entry by entry,
then as text. `order` is numeric when both sides look numeric and goes by the text otherwise; UTF-8
bytes are ordered as code points are.
-/

namespace Templating

inductive Comparison where
  | strictEq
  | strictNe
  | eq
  | ne
  | le
  | ge
  | lt
  | gt
deriving DecidableEq, Repr

namespace Comparison

def all : List Comparison := [.strictEq, .strictNe, .eq, .ne, .le, .ge, .lt, .gt]

def symbol : Comparison → String
  | .strictEq => "==="
  | .strictNe => "!=="
  | .eq => "=="
  | .ne => "!="
  | .le => "<="
  | .ge => ">="
  | .lt => "<"
  | .gt => ">"

end Comparison

def Number.Binary64.sameValue (x y : Number.Binary64) : Bool :=
  x.toUnits == y.toUnits

def Number.strictEq : Number → Number → Bool
  | .int m, .int n => m == n
  | .float x, .float y => x.sameValue y
  | _, _ => false

namespace Value

mutual

/-- Whether two values are of one kind and equal; maps also in the order of their entries. -/
def strictEq : Value → Value → Bool
  | .null, .null => true
  | .bool a, .bool b => a == b
  | .number m, .number n => m.strictEq n
  | .text s, .text t => s == t
  | .list xs, .list ys => strictEqItems xs ys
  | .map es, .map fs => strictEqEntries es fs
  | _, _ => false

def strictEqItems : List Value → List Value → Bool
  | [], [] => true
  | x :: xs, y :: ys => strictEq x y && strictEqItems xs ys
  | _, _ => false

def strictEqEntries : List (String × Value) → List (String × Value) → Bool
  | [], [] => true
  | (k, x) :: es, (l, y) :: fs => k == l && strictEq x y && strictEqEntries es fs
  | _, _ => false

end

/-- Equality of values that are neither both numeric nor both lists nor both maps: by truth when
one is a truth value or null, else as text; a list or a map equals nothing else. -/
def looseEqPlain : Value → Value → Bool
  | .bool b, other => b == other.isTruthy
  | other, .bool b => b == other.isTruthy
  | .null, other => !other.isTruthy
  | other, .null => !other.isTruthy
  | .list _, _ => false
  | .map _, _ => false
  | _, .list _ => false
  | _, .map _ => false
  | a, b => a.toOutput == b.toOutput

mutual

def looseEq (a b : Value) : Bool :=
  match a.toNumber?, b.toNumber? with
  | some x, some y => x.sameValue y
  | _, _ =>
    match a, b with
    | .list xs, .list ys => looseEqItems xs ys
    | .map es, .map fs => es.length == fs.length && looseEqEntries es fs
    | a, b => looseEqPlain a b

def looseEqItems : List Value → List Value → Bool
  | [], [] => true
  | x :: xs, y :: ys => looseEq x y && looseEqItems xs ys
  | _, _ => false

/-- Every entry has an equal partner of its name, wherever it stands. -/
def looseEqEntries : List (String × Value) → List (String × Value) → Bool
  | [], _ => true
  | (k, x) :: es, fs =>
    (match Entries.find? k fs with
      | some y => looseEq x y
      | none => false) && looseEqEntries es fs

end

def compareChars : List Char → List Char → Ordering
  | [], [] => .eq
  | [], _ :: _ => .lt
  | _ :: _, [] => .gt
  | c :: cs, d :: ds =>
    if c = d then compareChars cs ds else if c.toNat < d.toNat then .lt else .gt

/-- Numeric order when both values look numeric, else the order of their texts. -/
def order (a b : Value) : Ordering :=
  match a.toNumber?, b.toNumber? with
  | some x, some y => compare x.toUnits y.toUnits
  | _, _ => compareChars a.toOutput.toList b.toOutput.toList

end Value

def Comparison.holds : Comparison → Value → Value → Bool
  | .strictEq, a, b => a.strictEq b
  | .strictNe, a, b => !a.strictEq b
  | .eq, a, b => a.looseEq b
  | .ne, a, b => !a.looseEq b
  | .lt, a, b => a.order b == .lt
  | .le, a, b => a.order b != .gt
  | .gt, a, b => a.order b == .gt
  | .ge, a, b => a.order b != .lt

end Templating
