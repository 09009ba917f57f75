import Templating.Number.Decimal

/-!
# Shortest decimal text of a double

`shortest` picks, of all decimals that read back as the given double, one with the fewest digits,
and of those the nearest. For each number of digits only the two neighbours of the value on the
decimal grid of that many digits can qualify; the first grid with a hit wins. When both neighbours
are equally near, `Tie` decides.
-/

namespace Templating.Number

inductive Tie where
  | toEven
  | up
deriving DecidableEq, Repr

/-- The decimal exponent `e` with `10 ^ (e - 1) ≤ units < 10 ^ e`, the units counted in ones. -/
def decimalMagnitude (units : Nat) : Int :=
  let whole := units / Binary64.unitsPerOne
  if 0 < whole then Decimal.digitCount whole
  else -((List.range 330).takeWhile fun j =>
    decide (units * tenPow (j + 1) < Binary64.unitsPerOne)).length

def gridQuotient (units : Nat) (exponent : Int) : Nat × Nat :=
  if 0 ≤ exponent then (units, Binary64.unitsPerOne * tenPow exponent.toNat)
  else (units * tenPow (-exponent).toNat, Binary64.unitsPerOne)

def readsBack (units digits : Nat) (exponent : Int) : Bool :=
  ((Decimal.mk false digits exponent).toBinary64?.map Binary64.units) = some units

/-- The nearest decimal that reads back on the grid of multiples of `10 ^ exponent`. -/
def nearestOnGrid? (tie : Tie) (units : Nat) (exponent : Int) : Option Nat :=
  let (num, den) := gridQuotient units exponent
  let low := num / den
  let rest := num % den
  let preferLow := 2 * rest < den || (2 * rest == den && tie == .toEven && low % 2 == 0)
  match readsBack units low exponent, readsBack units (low + 1) exponent with
  | true, true => some (if preferLow then low else low + 1)
  | true, false => some low
  | false, true => some (low + 1)
  | false, false => none

/-- `digits * 10 ^ exponent` without the zeros at the end of `digits`; `fuel` bounds their number.
-/
def stripZeros : (fuel digits : Nat) → (exponent : Int) → Nat × Int
  | 0, digits, exponent => (digits, exponent)
  | fuel + 1, digits, exponent =>
    if digits % 10 = 0 ∧ digits ≠ 0 then stripZeros fuel (digits / 10) (exponent + 1)
    else (digits, exponent)

/-- The shortest decimal that reads back as `x`; seventeen digits always suffice. -/
def shortest (tie : Tie) (x : Binary64) : Decimal :=
  if x.units = 0 then ⟨x.negative, 0, 0⟩
  else
    let magnitude := decimalMagnitude x.units
    let found := (List.range 17).findSome? fun n =>
      let exponent := magnitude - (n + 1 : Nat)
      (nearestOnGrid? tie x.units exponent).map fun digits => (digits, exponent)
    let (digits, exponent) := found.getD (0, 0)
    let (digits, exponent) := stripZeros 20 digits exponent
    ⟨x.negative, digits, exponent⟩

end Templating.Number
