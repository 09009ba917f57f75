import Mathlib
import Templating.Host.Builtins
import Templating.Proofs.Number.Rounding

/-!
# Numbers with grouped digits

What `number_format` writes for every value and every number of decimals. The text is always that of
a multiple of the last decimal place, unless the scaled number is past the largest double; it is the
multiple nearest to the number when the scaling by the power of ten is exact, so for all numbers
without decimals and for integers as long as all the digits written fit 53 bits. Otherwise the
scaling rounds as well, and may take the last digits off or a number below a half over it.
-/

namespace Templating.Builtins

open Number

/-- The number that is written: zero for a value that stands for none. -/
def numberArgument (v : Value) : Binary64 :=
  v.toNumber?.getD .zero

def decimalsArgument (d? : Option Value) : Nat :=
  d?.elim 0 decimalsOf

theorem numberFormat_eq (v : Value) (d? : Option Value) :
    numberFormat (v :: d?.toList) =
      .ok (.text (grouped (numberArgument v) (decimalsArgument d?))) := by
  cases d? <;> rfl

theorem decimalsArgument_le (d? : Option Value) : decimalsArgument d? ≤ 15 := by
  cases d? with
  | none => exact Nat.zero_le 15
  | some d => exact Nat.min_le_right _ _

theorem numberArgument_int {n : Int} {x : Binary64} (hx : Binary64.ofInt? n = some x) :
    numberArgument (.number (.int n)) = x := by
  rw [numberArgument, Value.toNumber?, Number.toBinary64?, hx]
  rfl

/-- A number is written with the decimals asked for, no more than fifteen. The text is a number in
fixed-point notation as long as the scaled number is a double at all, and it is the right one exactly
when the scaling, though it is rounded, does not change the nearest integer: in particular for numbers
without decimals, wherever the scaling is exact, and for every integer of which all the digits that
are written fit 53 bits. It is off by no more than the half of the last place and the `2 ^ 53`rd part
of the number. -/
theorem numberFormat_rounds (v : Value) (d? : Option Value) :
    let x := numberArgument v
    let k := decimalsArgument d?
    ∃ text, numberFormat (v :: d?.toList) = .ok (.text text) ∧ k ≤ 15 ∧
      ((∃ m, Written m k text) ↔ ∃ y, scaleByTen? x k = some y) ∧
      (RoundsTo x k text ↔ ∃ y n, scaleByTen? x k = some y ∧
        NearestAway (|x.toRat| * 10 ^ k) n ∧ NearestAway y.toRat n) ∧
      (k = 0 → RoundsTo x k text) ∧
      (Representable (x.units * 10 ^ k) → RoundsTo x k text) ∧
      (∀ n : Int, v = .number (.int n) → n.natAbs * 10 ^ k ≤ 2 ^ 53 →
        Written (n * 10 ^ k) k text) ∧
      (|x.toRat| * 10 ^ k ≤ Binary64.largest.toRat → ∃ m, Written m k text ∧
        |(m : ℚ) - x.toRat * 10 ^ k| ≤ 1 / 2 + |x.toRat| * 10 ^ k / 2 ^ 53) := by
  intro x k
  have hexact : Representable (x.units * 10 ^ k) → RoundsTo x k (grouped x k) := roundsTo_grouped
  refine ⟨grouped x k, numberFormat_eq v d?, decimalsArgument_le d?, ⟨?_, ?_⟩,
    roundsTo_grouped_iff, ?_, hexact, ?_, exists_written_grouped⟩
  · rintro ⟨m, hwritten⟩
    cases hscaled : scaleByTen? x k with
    | none => exact absurd hwritten (not_written_grouped hscaled m)
    | some y => exact ⟨y, rfl⟩
  · rintro ⟨y, hscaled⟩
    exact ⟨_, written_grouped hscaled⟩
  · intro hk
    refine hexact ?_
    rw [hk, Nat.pow_zero, Nat.mul_one]
    exact x.representable
  · rintro n rfl hn
    obtain ⟨x', hx', hunits, hrat⟩ :=
      exists_ofInt? ((Nat.le_mul_of_pos_right _ (tenPow_pos k)).trans hn)
    rw [← numberArgument_int hx'] at hunits hrat
    exact written_grouped_of_toUnits hn hunits hrat

theorem numberFormat_rounds_integer :
    numberFormat [.number (.int (-1234567)), .number (.int 2)] = .ok (.text "-1,234,567.00") ∧
      Written (-123456700) 2 "-1,234,567.00" := by
  have hdecimals : decimalsArgument (some (.number (.int 2))) = 2 := by decide +kernel
  have heval : grouped (numberArgument (.number (.int (-1234567)))) 2 = "-1,234,567.00" := by
    decide +kernel
  obtain ⟨text, htext, -, -, -, -, -, hint, -⟩ :=
    numberFormat_rounds (.number (.int (-1234567))) (some (.number (.int 2)))
  have heq := numberFormat_eq (.number (.int (-1234567))) (some (.number (.int 2)))
  rw [hdecimals, heval] at heq
  obtain rfl : "-1,234,567.00" = text := by
    rw [heq] at htext
    cases htext
    rfl
  have hwritten := hint (-1234567) rfl
  rw [hdecimals] at hwritten
  exact ⟨heq, hwritten (by decide)⟩

/-- The text is not always that of the nearest multiple, not even for an integer: the largest one of
53 bits is not written with its own digits and two zeros. -/
theorem not_numberFormat_rounds :
    ¬∀ (v : Value) (d? : Option Value), ∃ text, numberFormat (v :: d?.toList) = .ok (.text text) ∧
      RoundsTo (numberArgument v) (decimalsArgument d?) text := by
  intro h
  obtain ⟨text, htext, m, hm, hwritten⟩ :=
    h (.number (.int 9007199254740991)) (some (.number (.int 2)))
  have hdecimals : decimalsArgument (some (.number (.int 2))) = 2 := by decide +kernel
  have heval : grouped (numberArgument (.number (.int 9007199254740991))) 2 =
      "9,007,199,254,740,990.72" := by
    decide +kernel
  rw [numberFormat_eq, hdecimals, heval] at htext
  cases htext
  rw [hdecimals] at hm hwritten
  obtain ⟨x, hx, -, hrat⟩ := exists_ofInt? (n := 9007199254740991) (by decide)
  have hexact := NearestAway.intCast (9007199254740991 * 10 ^ 2)
  rw [Int.cast_mul, ← hrat, ← numberArgument_int hx, Int.cast_pow, Int.cast_ofNat] at hexact
  obtain rfl := hm.unique hexact
  have hread := hwritten.value
  revert hread
  decide +kernel

end Templating.Builtins
