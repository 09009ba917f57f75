import Mathlib
import Templating.Number.Basic

/-!
# Integers rounded to 53 bits

The double nearest to an integer of 64 bits is an integer as well: the one with 53 significant bits
that is nearest, a tie going to the even significand (`toUnits_ofInt?`). So integers are told apart as
doubles exactly when they round to different integers. Rounding keeps the order (`roundInt_mono`), is
exact up to `2 ^ 53` (`roundInt_of_le`) and moves no integer of 64 bits by more than 1024
(`roundInt_near`).
-/

namespace Templating.Number

/-! ## The nearest quotient -/

theorem div_le_nearestEven (num den : Nat) : num / den ≤ nearestEven num den := by
  simp only [nearestEven]
  split <;> omega

theorem nearestEven_mono {m n : Nat} (h : m ≤ n) (den : Nat) :
    nearestEven m den ≤ nearestEven n den := by
  obtain hlt | heq := (Nat.div_le_div_right (c := den) h).lt_or_eq
  · calc nearestEven m den
        ≤ m / den + 1 := nearestEven_le m den
      _ ≤ n / den := hlt
      _ ≤ nearestEven n den := div_le_nearestEven n den
  · have hrest : m % den ≤ n % den := by
      have hm := Nat.div_add_mod m den
      have hn := Nat.div_add_mod n den
      rw [heq] at hm
      omega
    simp only [nearestEven, heq]
    split <;> split <;> omega

theorem nearestEven_mul_right (num den : Nat) {k : Nat} (hk : 0 < k) :
    nearestEven (num * k) (den * k) = nearestEven num den := by
  have hlt : 2 * (num % den * k) < den * k ↔ 2 * (num % den) < den := by
    rw [← Nat.mul_assoc, Nat.mul_lt_mul_right hk]
  have heq : 2 * (num % den * k) = den * k ↔ 2 * (num % den) = den := by
    rw [← Nat.mul_assoc, Nat.mul_left_inj hk.ne']
  simp only [nearestEven, Nat.mul_div_mul_right _ _ hk, Nat.mul_mod_mul_right, hlt, heq]

theorem nearestEven_mul_self (q : Nat) {den : Nat} (hden : 0 < den) :
    nearestEven (q * den) den = q := by
  simp [nearestEven, Nat.mul_div_cancel q hden, hden]

theorem nearestEven_near (num : Nat) {den : Nat} (hden : 0 < den) :
    2 * num ≤ 2 * (nearestEven num den * den) + den ∧
      2 * (nearestEven num den * den) ≤ 2 * num + den := by
  have hrest := Nat.mod_lt num hden
  have hsum := Nat.div_add_mod' num den
  simp only [nearestEven]
  split
  · omega
  · rw [Nat.add_mul, Nat.one_mul]
    omega

/-! ## Rounding integers -/

/-- The natural number with 53 significant bits that is nearest to `n`, a tie to the even
significand. -/
def roundNat (n : Nat) : Nat :=
  nearestEven n (twoPow (n.log2 - 52)) * twoPow (n.log2 - 52)

def roundInt (n : Int) : Int :=
  if n < 0 then -(roundNat n.natAbs : Int) else roundNat n.natAbs

theorem log2_lt_of_lt {n k : Nat} (hk : 0 < k) (h : n < twoPow k) : n.log2 < k := by
  obtain rfl | hn := Nat.eq_zero_or_pos n
  · exact hk
  · exact (Nat.log2_lt hn.ne').2 h

theorem log2_le_log2 {m n : Nat} (hm : m ≠ 0) (h : m ≤ n) : m.log2 ≤ n.log2 :=
  le_log2_of_twoPow_le ((twoPow_log2_le hm).trans h)

theorem nearestEven_twoPow {s k : Nat} (h : s ≤ k) :
    nearestEven (twoPow k) (twoPow s) * twoPow s = twoPow k := by
  obtain ⟨d, rfl⟩ := Nat.exists_eq_add_of_le h
  rw [twoPow_add, Nat.mul_comm (twoPow s), nearestEven_mul_self _ (twoPow_pos s)]

/-- A number is not rounded past the powers of two around it. -/
theorem roundNat_bounds {n : Nat} (hn : n ≠ 0) :
    twoPow n.log2 ≤ roundNat n ∧ roundNat n ≤ twoPow (n.log2 + 1) := by
  have hlow := nearestEven_mono (twoPow_log2_le hn) (twoPow (n.log2 - 52))
  have hhigh := nearestEven_mono (lt_twoPow_log2 n).le (twoPow (n.log2 - 52))
  rw [← nearestEven_twoPow (Nat.sub_le n.log2 52),
    ← nearestEven_twoPow ((Nat.sub_le n.log2 52).trans (Nat.le_succ n.log2))]
  exact ⟨Nat.mul_le_mul_right _ hlow, Nat.mul_le_mul_right _ hhigh⟩

theorem roundNat_mono {m n : Nat} (h : m ≤ n) : roundNat m ≤ roundNat n := by
  obtain rfl | hm := Nat.eq_zero_or_pos m
  · exact Nat.zero_le _
  · obtain hlt | heq := (log2_le_log2 hm.ne' h).lt_or_eq
    · calc roundNat m
          ≤ twoPow (m.log2 + 1) := (roundNat_bounds hm.ne').2
        _ ≤ twoPow n.log2 := twoPow_le_twoPow hlt
        _ ≤ roundNat n := (roundNat_bounds (by omega)).1
    · rw [roundNat, roundNat, heq]
      exact Nat.mul_le_mul_right _ (nearestEven_mono h _)

theorem roundNat_of_log2_le {n : Nat} (h : n.log2 ≤ 52) : roundNat n = n := by
  have hone := nearestEven_mul_self n (twoPow_pos 0)
  rw [twoPow_zero, Nat.mul_one] at hone
  rw [roundNat, Nat.sub_eq_zero_of_le h, twoPow_zero, hone, Nat.mul_one]

theorem roundNat_of_le {n : Nat} (h : n ≤ twoPow 53) : roundNat n = n := by
  obtain hlt | rfl := h.lt_or_eq
  · exact roundNat_of_log2_le (Nat.le_of_lt_succ (log2_lt_of_lt (by decide) hlt))
  · decide +kernel

/-- A number of 64 bits is moved by at most half of what its last place counts. -/
theorem roundNat_near {n : Nat} (h : n < twoPow 64) :
    n ≤ roundNat n + 1024 ∧ roundNat n ≤ n + 1024 := by
  have hlog := log2_lt_of_lt (by decide) h
  have hlast : twoPow (n.log2 - 52) ≤ 2048 := twoPow_le_twoPow (n := 11) (by omega)
  have hnear := nearestEven_near n (twoPow_pos (n.log2 - 52))
  rw [roundNat]
  omega

theorem roundInt_mono {a b : Int} (h : a ≤ b) : roundInt a ≤ roundInt b := by
  unfold roundInt
  split <;> split
  · have := roundNat_mono (m := b.natAbs) (n := a.natAbs) (by omega)
    omega
  · omega
  · omega
  · have := roundNat_mono (m := a.natAbs) (n := b.natAbs) (by omega)
    omega

theorem roundInt_of_le {n : Int} (h : n.natAbs ≤ twoPow 53) : roundInt n = n := by
  rw [roundInt, roundNat_of_le h]
  split <;> omega

theorem roundInt_near {n : Int} (h : n.natAbs < twoPow 64) :
    n ≤ roundInt n + 1024 ∧ roundInt n ≤ n + 1024 := by
  have hnear := roundNat_near h
  unfold roundInt
  split <;> omega

theorem roundInt_ne_of_lt {a b : Int} (ha : a.natAbs < twoPow 53) (hne : a ≠ b) :
    roundInt a ≠ roundInt b := by
  have hself := roundInt_of_le ha.le
  obtain hlt | hlt := lt_or_gt_of_ne hne
  · have hnext := roundInt_of_le (n := a + 1) (by omega)
    have hle := roundInt_mono (a := a + 1) (b := b) hlt
    omega
  · have hnext := roundInt_of_le (n := a - 1) (by omega)
    have hle := roundInt_mono (a := b) (b := a - 1) (by omega)
    omega

/-! ## The nearest double -/

theorem log2_mul_twoPow {n : Nat} (hn : n ≠ 0) (k : Nat) : (n * twoPow k).log2 = n.log2 + k := by
  rw [Nat.log2_eq_iff (Nat.mul_ne_zero hn (twoPow_pos k).ne')]
  constructor
  · calc twoPow (n.log2 + k)
        = twoPow n.log2 * twoPow k := twoPow_add _ _
      _ ≤ n * twoPow k := Nat.mul_le_mul_right _ (twoPow_log2_le hn)
  · calc n * twoPow k
        < twoPow (n.log2 + 1) * twoPow k :=
          Nat.mul_lt_mul_of_pos_right (lt_twoPow_log2 n) (twoPow_pos k)
      _ = twoPow (n.log2 + k + 1) := by rw [← twoPow_add, Nat.add_right_comm]

open Binary64 (unitsPerOne)

theorem unitsPerOne_pos : 0 < unitsPerOne := twoPow_pos 1074

theorem shiftFor_units {n : Nat} (hn : n ≠ 0) : shiftFor (n * unitsPerOne) 1 = n.log2 + 1022 := by
  rw [shiftFor, Nat.div_one, unitsPerOne, log2_mul_twoPow hn]
  omega

/-- Rounding a whole number of ones to a double rounds the number. -/
theorem nearestEven_units (n : Nat) :
    nearestEven (n * unitsPerOne) (twoPow (n.log2 + 1022)) * twoPow (n.log2 + 1022) =
      roundNat n * unitsPerOne := by
  obtain hlog | hlog := Nat.le_total 52 n.log2
  · have hsum : n.log2 + 1022 = (n.log2 - 52) + 1074 := by omega
    rw [hsum, twoPow_add, ← unitsPerOne, nearestEven_mul_right _ _ unitsPerOne_pos, ← Nat.mul_assoc,
      roundNat]
  · have hsum : 1074 = (52 - n.log2) + (n.log2 + 1022) := by omega
    have hunits : unitsPerOne = twoPow (52 - n.log2) * twoPow (n.log2 + 1022) := by
      rw [unitsPerOne, hsum, twoPow_add]
    rw [roundNat_of_log2_le hlog, hunits, ← Nat.mul_assoc, nearestEven_mul_self _ (twoPow_pos _)]

/-- The double nearest to an integer of 64 bits is the rounded integer. -/
theorem toUnits_ofInt? {n : Int} (h : n.natAbs < twoPow 64) :
    (Binary64.ofInt? n).map Binary64.toUnits = some (roundInt n * unitsPerOne) := by
  obtain rfl | hn := eq_or_ne n 0
  · decide +kernel
  · have hnat : n.natAbs ≠ 0 := Int.natAbs_ne_zero.2 hn
    have hlog := log2_lt_of_lt (by decide) h
    have hshift := shiftFor_units hnat
    have hround := nearestEven_units n.natAbs
    rw [Binary64.ofInt?, Binary64.round?, dif_pos (.inl (by omega)), Option.map_some]
    simp only [Binary64.toUnits, hshift, Nat.one_mul, hround, roundInt, decide_eq_true_eq]
    split <;> push_cast <;> ring_nf

end Templating.Number
