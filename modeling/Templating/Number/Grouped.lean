import Templating.Number.Basic

/-!
# Grouped decimal notation

`grouped` writes a double with a fixed number of decimals and a comma before every third digit of
the integer part. The scaling by a power of ten is done in double precision, so the scaled value is
rounded to a double first and to an integer, halves away from zero, after that.
-/

namespace Templating.Number

/-- A comma before every third digit, counted from the right. -/
def groupDigits : List Char → List Char
  | [] => []
  | d :: ds => d :: ((if ds ≠ [] ∧ ds.length % 3 = 0 then [','] else []) ++ groupDigits ds)

def roundMagnitude (x : Binary64) : Nat :=
  (2 * x.units + Binary64.unitsPerOne) / (2 * Binary64.unitsPerOne)

/-- The magnitude of `x` times `10 ^ decimals`, rounded to a double; `none` past the largest one. -/
def scaleByTen? (x : Binary64) (decimals : Nat) : Option Binary64 :=
  Binary64.round? false (x.units * tenPow decimals) 1

/-- The digits of the scaled and rounded magnitude. Past the largest double there are none, and the
word `inf` stands in their place. -/
def scaledDigits (x : Binary64) (decimals : Nat) : List Char :=
  match scaleByTen? x decimals with
  | some y => Nat.toDigits 10 (roundMagnitude y)
  | none => "inf".toList

def scaledNonzero (x : Binary64) (decimals : Nat) : Bool :=
  match scaleByTen? x decimals with
  | some y => roundMagnitude y != 0
  | none => true

def padDigits (decimals : Nat) (ds : List Char) : List Char :=
  List.replicate (decimals + 1 - ds.length) '0' ++ ds

/-- `x` with `decimals` decimals, halves away from zero, and commas in the integer part. -/
def grouped (x : Binary64) (decimals : Nat) : String :=
  let ds := padDigits decimals (scaledDigits x decimals)
  let whole := ds.take (ds.length - decimals)
  let fraction := ds.drop (ds.length - decimals)
  String.ofList (signText (x.negative && scaledNonzero x decimals) ++ groupDigits whole ++
    if decimals = 0 then [] else '.' :: fraction)

end Templating.Number
