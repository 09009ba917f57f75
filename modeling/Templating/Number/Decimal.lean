import Templating.Number.Binary64

/-!
# Decimal numbers

A `Decimal` is an integer times a power of ten: what a numeric text says before it is rounded.
`read?` reads the texts of decimal numbers, with or without point and exponent, and `toBinary64?`
rounds to the nearest double. `positional` writes one without an exponent.
-/

namespace Templating.Number

/-- The number `digits * 10 ^ exponent`, with a sign that zero has too. -/
structure Decimal where
  negative : Bool
  digits : Nat
  exponent : Int
deriving DecidableEq, Repr

def appendDigits (n : Nat) (ds : List Char) : Nat :=
  ds.foldl (fun n d => 10 * n + (d.toNat - 48)) n

/-- The value of a run of digits, put together from the values of its halves: `depth` tells how often
it is halved. A long run takes few large products this way, not one for each digit. -/
def digitsValueByHalves : (depth : Nat) → (ds : List Char) → Nat
  | 0, ds => appendDigits 0 ds
  | depth + 1, ds =>
    let low := ds.drop (ds.length / 2)
    digitsValueByHalves depth (ds.take (ds.length / 2)) * tenPow low.length +
      digitsValueByHalves depth low

def digitsValue (ds : List Char) : Nat :=
  digitsValueByHalves (ds.length.log2 - 6) ds

@[simp] theorem appendDigits_nil (n : Nat) : appendDigits n [] = n := rfl

@[simp] theorem appendDigits_cons (n : Nat) (d : Char) (ds : List Char) :
    appendDigits n (d :: ds) = appendDigits (10 * n + (d.toNat - 48)) ds := by
  simp only [appendDigits, List.foldl_cons]

theorem appendDigits_eq (n : Nat) (ds : List Char) :
    appendDigits n ds = n * tenPow ds.length + appendDigits 0 ds := by
  induction ds generalizing n with
  | nil => simp
  | cons d ds ih =>
    simp only [appendDigits_cons, List.length_cons, tenPow_succ]
    rw [ih (10 * n + _), ih (10 * 0 + _)]
    simp [Nat.add_mul, Nat.mul_comm, Nat.mul_assoc, Nat.add_assoc]

theorem le_appendDigits (n : Nat) (ds : List Char) : n ≤ appendDigits n ds := by
  rw [appendDigits_eq]
  exact Nat.le_trans (Nat.le_mul_of_pos_right n (tenPow_pos _)) (Nat.le_add_right _ _)

theorem appendDigits_append (n : Nat) (as bs : List Char) :
    appendDigits n (as ++ bs) = appendDigits (appendDigits n as) bs :=
  List.foldl_append

theorem digitsValueByHalves_eq (depth : Nat) (ds : List Char) :
    digitsValueByHalves depth ds = appendDigits 0 ds := by
  induction depth generalizing ds with
  | zero => rfl
  | succ depth ih =>
    simp only [digitsValueByHalves, ih]
    rw [← appendDigits_eq, ← appendDigits_append, List.take_append_drop]

theorem digitsValue_eq (ds : List Char) : digitsValue ds = appendDigits 0 ds :=
  digitsValueByHalves_eq _ ds

/-- Splits an optional sign off; the first component tells whether it is a minus. -/
def readSign : List Char → Bool × List Char
  | '-' :: cs => (true, cs)
  | '+' :: cs => (false, cs)
  | cs => (false, cs)

def spanSign : List Char → List Char × List Char
  | '-' :: cs => (['-'], cs)
  | '+' :: cs => (['+'], cs)
  | cs => ([], cs)

theorem length_spanSign_le (cs : List Char) : (spanSign cs).2.length ≤ cs.length := by
  unfold spanSign
  split <;> simp

def readDigits? (cs : List Char) : Option Nat :=
  if cs ≠ [] ∧ cs.all Char.isDigit then some (digitsValue cs) else none

/-- The value of the digits of an exponent. They count until they have reached `65536`, and those
that follow are passed over: `655359` is the largest exponent. -/
def exponentValue (ds : List Char) : Nat :=
  ds.foldl (fun n d => if n < 65536 then 10 * n + (d.toNat - 48) else n) 0

theorem exponentValue_eq_digitsValue {ds : List Char} (h : digitsValue ds < 655360) :
    exponentValue ds = digitsValue ds := by
  rw [digitsValue_eq] at h ⊢
  suffices ∀ n, appendDigits n ds < 655360 →
      ds.foldl (fun n d => if n < 65536 then 10 * n + (d.toNat - 48) else n) n =
        appendDigits n ds from this 0 h
  clear h
  induction ds with
  | nil => simp
  | cons d ds ih =>
    intro n h
    simp only [List.foldl_cons, appendDigits_cons] at h ⊢
    have := le_appendDigits (10 * n + (d.toNat - 48)) ds
    rw [if_pos (by omega)]
    exact ih _ h

def readExponent? : List Char → Option Int
  | [] => some 0
  | c :: cs =>
    if c = 'e' ∨ c = 'E' then
      let (negative, ds) := readSign cs
      if ds ≠ [] ∧ ds.all Char.isDigit then
        some (if negative then -(exponentValue ds : Int) else exponentValue ds)
      else none
    else none

def readFraction : List Char → List Char × List Char
  | '.' :: cs => (cs.takeWhile Char.isDigit, cs.dropWhile Char.isDigit)
  | cs => ([], cs)

namespace Decimal

/-- Reads `sign? digits? ('.' digits?)? (('e' | 'E') sign? digits)?` with a digit before the
exponent. -/
def read? (cs : List Char) : Option Decimal :=
  let (negative, body) := readSign cs
  let whole := body.takeWhile Char.isDigit
  let (fraction, rest) := readFraction (body.dropWhile Char.isDigit)
  if whole = [] ∧ fraction = [] then none
  else (readExponent? rest).map fun e =>
    { negative, digits := digitsValue (whole ++ fraction), exponent := e - fraction.length }

def digitCount (n : Nat) : Nat :=
  (Nat.toDigits 10 n).length

/-- The decimal as a quotient of natural numbers, in units of `2 ^ -1074`. -/
def toQuotient (d : Decimal) : Nat × Nat :=
  if 0 ≤ d.exponent then (d.digits * tenPow d.exponent.toNat * Binary64.unitsPerOne, 1)
  else (d.digits * Binary64.unitsPerOne, tenPow (-d.exponent).toNat)

/-- The double nearest to the decimal, or `none` past the largest double. Numbers far outside the
range of doubles are settled by their size alone, because a power of ten is at least the power of
two with three times its exponent. -/
def toBinary64? (d : Decimal) : Option Binary64 :=
  let bits : Int := d.digits.log2
  if d.digits = 0 ∨ bits + 1080 < -3 * d.exponent then Binary64.round? d.negative 0 1
  else if 0 ≤ d.exponent ∧ 1024 ≤ bits + 3 * d.exponent then none
  else
    let (num, den) := d.toQuotient
    Binary64.round? d.negative num den

/-- The shortcuts by size change nothing: the double is the quotient, rounded. -/
theorem toBinary64?_eq_round? (d : Decimal) :
    d.toBinary64? = Binary64.round? d.negative d.toQuotient.1 d.toQuotient.2 := by
  simp only [toBinary64?]
  split
  case isTrue h =>
    refine (Binary64.round?_of_two_mul_lt ?_).symm
    rcases h with h | h
    · simp only [toQuotient, h, Nat.zero_mul]
      split
      · decide
      · exact tenPow_pos _
    · have hneg : ¬0 ≤ d.exponent := by omega
      rw [toQuotient, if_neg hneg]
      calc 2 * (d.digits * Binary64.unitsPerOne)
          < 2 * (twoPow (d.digits.log2 + 1) * Binary64.unitsPerOne) :=
            Nat.mul_lt_mul_of_pos_left
              (Nat.mul_lt_mul_of_pos_right (lt_twoPow_log2 _) (twoPow_pos _)) Nat.two_pos
        _ = twoPow (d.digits.log2 + 1 + 1074 + 1) := by
            rw [twoPow_succ (_ + 1074), twoPow_add _ 1074, Binary64.unitsPerOne]
        _ ≤ twoPow (3 * (-d.exponent).toNat) := twoPow_le_twoPow (by omega)
        _ ≤ tenPow (-d.exponent).toNat := twoPow_le_tenPow _
  case isFalse h =>
    split
    case isFalse => rfl
    case isTrue hbig =>
      refine (Binary64.round?_eq_none ?_).symm
      rw [toQuotient, if_pos hbig.1, Nat.div_one]
      calc twoPow 2098 = twoPow 1024 * twoPow 1074 := by rw [← twoPow_add]
        _ ≤ twoPow (d.digits.log2 + 3 * d.exponent.toNat) * twoPow 1074 :=
            Nat.mul_le_mul_right _ (twoPow_le_twoPow (by omega))
        _ = twoPow d.digits.log2 * twoPow (3 * d.exponent.toNat) * twoPow 1074 := by
            rw [twoPow_add]
        _ ≤ d.digits * tenPow d.exponent.toNat * Binary64.unitsPerOne :=
            Nat.mul_le_mul_right _ (Nat.mul_le_mul
              (twoPow_log2_le fun h0 => h (Or.inl h0)) (twoPow_le_tenPow _))

def positionalParts (d : Decimal) : List Char × List Char :=
  let ds := Nat.toDigits 10 d.digits
  if 0 ≤ d.exponent then (ds ++ List.replicate d.exponent.toNat '0', [])
  else
    let places := (-d.exponent).toNat
    if ds.length ≤ places then (['0'], List.replicate (places - ds.length) '0' ++ ds)
    else (ds.take (ds.length - places), ds.drop (ds.length - places))

end Decimal

end Templating.Number
