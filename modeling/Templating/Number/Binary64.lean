import Templating.Number.Power

/-!
# Double-precision numbers

A finite double is a sign and a magnitude, counted exactly in units of `2 ^ -1074`, the smallest
positive double. So every operation is integer arithmetic followed by one rounding: `round?` takes a
quotient of natural numbers to the nearest double, a tie to the even significand, and gives `none`
past the largest one. The two zeros are different doubles of equal value; comparison goes by
`toUnits`.
-/

namespace Templating.Number

/-- Magnitudes of finite doubles, in units of `2 ^ -1074`: a significand of 53 bits, shifted. -/
def Representable (units : Nat) : Prop :=
  ∃ significand shift,
    significand < twoPow 53 ∧ shift ≤ 2045 ∧ units = significand * twoPow shift

/-- A finite double: its sign and its magnitude in units of `2 ^ -1074`. -/
structure Binary64 where
  negative : Bool
  units : Nat
  representable : Representable units

theorem representable_zero : Representable 0 :=
  ⟨0, 0, by decide, by decide, rfl⟩

/-- The quotient `num / den` rounded to the nearest integer, a tie to the even one. -/
def nearestEven (num den : Nat) : Nat :=
  let low := num / den
  let rest := num % den
  if 2 * rest < den ∨ (2 * rest = den ∧ low % 2 = 0) then low else low + 1

theorem nearestEven_le (num den : Nat) : nearestEven num den ≤ num / den + 1 := by
  simp only [nearestEven]
  split <;> omega

/-- How far the units of the quotient `num / den` are shifted so that 53 bits are left. -/
def shiftFor (num den : Nat) : Nat :=
  (num / den).log2 - 52

theorem div_shiftFor_lt (num den : Nat) :
    num / (den * twoPow (shiftFor num den)) < twoPow 53 := by
  rw [← Nat.div_div_eq_div_mul, Nat.div_lt_iff_lt_mul (twoPow_pos _), ← twoPow_add]
  refine Nat.lt_of_lt_of_le (lt_twoPow_log2 _) (twoPow_le_twoPow ?_)
  simp only [shiftFor]
  omega

theorem representable_round {num den : Nat}
    (h : shiftFor num den < 2045 ∨ (shiftFor num den = 2045 ∧
      nearestEven num (den * twoPow (shiftFor num den)) < twoPow 53)) :
    Representable
      (nearestEven num (den * twoPow (shiftFor num den)) * twoPow (shiftFor num den)) := by
  have hle := nearestEven_le num (den * twoPow (shiftFor num den))
  have hlt := div_shiftFor_lt num den
  by_cases hm : nearestEven num (den * twoPow (shiftFor num den)) < twoPow 53
  · exact ⟨_, _, hm, by omega, rfl⟩
  · have htop : twoPow 53 = twoPow 52 * 2 := by rw [twoPow_succ, Nat.mul_comm]
    have heq : nearestEven num (den * twoPow (shiftFor num den)) = twoPow 52 * 2 := by omega
    refine ⟨twoPow 52, shiftFor num den + 1, by decide, by omega, ?_⟩
    rw [heq, twoPow_succ (shiftFor num den), Nat.mul_assoc]

namespace Binary64

theorem ext_units {x y : Binary64} (hn : x.negative = y.negative) (hu : x.units = y.units) :
    x = y := by
  cases x
  cases y
  simp_all

instance : DecidableEq Binary64 := fun x y =>
  if h : x.negative = y.negative ∧ x.units = y.units then isTrue (ext_units h.1 h.2)
  else isFalse fun hxy => h ⟨hxy ▸ rfl, hxy ▸ rfl⟩

def zero : Binary64 := ⟨false, 0, representable_zero⟩

instance : Inhabited Binary64 := ⟨zero⟩

/-- The double of the given sign nearest to `num / den` units, or `none` when that is past the
largest double. -/
def round? (negative : Bool) (num den : Nat) : Option Binary64 :=
  if h : shiftFor num den < 2045 ∨ (shiftFor num den = 2045 ∧
      nearestEven num (den * twoPow (shiftFor num den)) < twoPow 53) then
    some ⟨negative, _, representable_round h⟩
  else none

theorem round?_of_two_mul_lt {negative : Bool} {num den : Nat} (h : 2 * num < den) :
    round? negative num den = round? negative 0 1 := by
  have hdiv : num / den = 0 := Nat.div_eq_of_lt (by omega)
  have hmod : num % den = num := Nat.mod_eq_of_lt (by omega)
  simp [round?, shiftFor, nearestEven, hdiv, hmod, h]

/-- From `2 ^ 1024` on, which is `2 ^ 2098` units, there are no doubles. -/
theorem round?_eq_none {negative : Bool} {num den : Nat} (h : twoPow 2098 ≤ num / den) :
    round? negative num den = none := by
  have hlog := le_log2_of_twoPow_le h
  have hshift : 2046 ≤ shiftFor num den := by simp only [shiftFor]; omega
  exact dif_neg (by omega)

def unitsPerOne : Nat := twoPow 1074

def toUnits (x : Binary64) : Int :=
  if x.negative then -(x.units : Int) else x.units

def ofInt? (n : Int) : Option Binary64 :=
  round? (decide (n < 0)) (n.natAbs * unitsPerOne) 1

def truncate (x : Binary64) : Int :=
  if x.negative then -((x.units / unitsPerOne : Nat) : Int) else (x.units / unitsPerOne : Nat)

end Binary64

end Templating.Number
