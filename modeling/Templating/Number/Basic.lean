import Templating.Number.Shortest

/-!
# Numbers of template data

A number is an integer or a double, and `1` and `1.0` are different numbers. `read?` is the numeric
literal of the expression language: an integer when the text is one that fits 64 bits with sign,
otherwise a finite double. `toText` is what a template prints and `toJson` what a JSON document
holds.
-/

namespace Templating

/-- An integer or a finite double. Integers that come from documents lie between `-2 ^ 63` and
`2 ^ 64 - 1`. -/
inductive Number where
  | int (value : Int)
  | float (value : Number.Binary64)
deriving DecidableEq, Inhabited

namespace Number

def minInt64 : Int := -9223372036854775808

def maxInt64 : Int := 9223372036854775807

def maxUInt64 : Int := 18446744073709551615

def readInt? (cs : List Char) : Option Int :=
  let (negative, ds) := readSign cs
  (readDigits? ds).map fun n => if negative then -(n : Int) else n

def readInt64? (cs : List Char) : Option Int :=
  (readInt? cs).filter fun n => minInt64 ≤ n && n ≤ maxInt64

def readFloat? (cs : List Char) : Option Binary64 :=
  (Decimal.read? cs).bind Decimal.toBinary64?

/-- A numeric literal: an integer if the text is one in range, else a finite double. -/
def read? (cs : List Char) : Option Number :=
  match readInt64? cs with
  | some n => some (.int n)
  | none => (readFloat? cs).map .float

/-- The number a JSON literal writes: an integer when it has neither point nor exponent and fits 64
bits with or without sign, else a double. The literal `-0` is a double, because only doubles have a
negative zero. -/
def ofJsonLiteral? (literal : String) : Option Number :=
  let cs := literal.toList
  match readInt? cs with
  | some n =>
    if minInt64 ≤ n ∧ n ≤ maxUInt64 ∧ cs ≠ ['-', '0'] then some (.int n)
    else (readFloat? cs).map .float
  | none => (readFloat? cs).map .float

def toBinary64? : Number → Option Binary64
  | .int n => Binary64.ofInt? n
  | .float x => some x

def intText (n : Int) : String :=
  if n < 0 then "-" ++ toString n.natAbs else toString n.natAbs

def signText (negative : Bool) : List Char :=
  if negative then ['-'] else []

/-- A double in template output: shortest digits without an exponent, no fraction when it is a whole
number, and no sign on zero. Of two equally near digits the upper one is written. -/
def floatOutput (x : Binary64) : String :=
  if x.units = 0 then "0"
  else
    let d := shortest .up x
    let (whole, fraction) := d.positionalParts
    String.ofList (signText d.negative ++ whole ++ if fraction = [] then [] else '.' :: fraction)

def exponentText (e : Int) : List Char :=
  'e' :: (if e < 0 then '-' else '+') :: Nat.toDigits 10 e.natAbs

/-- A double in JSON: shortest digits, a tie to the even digit. Between `10 ^ -5` and `10 ^ 16` the
notation is positional and always has a fraction; outside, one digit stands before the point and
the exponent is written. -/
def floatJson (x : Binary64) : String :=
  let d := shortest .toEven x
  let ds := Nat.toDigits 10 d.digits
  let scientific := d.exponent + (ds.length - 1 : Nat)
  let body :=
    if -5 ≤ scientific ∧ scientific < 16 then
      let (whole, fraction) := d.positionalParts
      whole ++ '.' :: if fraction = [] then ['0'] else fraction
    else
      ds.take 1 ++ (if ds.length ≤ 1 then [] else '.' :: ds.drop 1) ++ exponentText scientific
  String.ofList (signText d.negative ++ body)

def toOutput : Number → String
  | .int n => intText n
  | .float x => floatOutput x

def toJson : Number → String
  | .int n => intText n
  | .float x => floatJson x

end Number

end Templating
