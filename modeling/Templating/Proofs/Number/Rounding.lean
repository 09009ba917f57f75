import Mathlib
import Templating.Proofs.Number.FixedPoint
import Templating.Proofs.Number.Significand

/-!
# Rounding a scaled double

`NearestAway q m` says that `m` is the integer nearest to the rational `q`, halves away from zero.
The text of a double with `k` decimals should be that of the integer nearest to `10 ^ k` times its
exact value (`RoundsTo`). `grouped` rounds the product to a double before it rounds to an integer, and
its text is the right one exactly when both roundings lead to the same integer
(`roundsTo_grouped_iff`), as they do when the product is a double (`roundsTo_grouped`). Wherever the
product is at most the largest double, rounding twice takes the text further off by no more than
`2 ^ -53` of the product (`exists_written_grouped`).
-/

namespace Templating.Number

/-! ## The nearest integer -/

/-- `m` is an integer nearest to `q`, and of two that are equally near the one further from zero. -/
structure NearestAway (q : ℚ) (m : ℤ) : Prop where
  nearest : ∀ n : ℤ, |q - m| ≤ |q - n|
  away : ∀ n : ℤ, |q - n| = |q - m| → |n| ≤ |m|

namespace NearestAway

variable {q : ℚ} {m n : ℤ}

theorem unique (hm : NearestAway q m) (hn : NearestAway q n) : m = n := by
  have hdistance : |q - m| = |q - n| := le_antisymm (hm.nearest n) (hn.nearest m)
  have habs : |m| = |n| := le_antisymm (hn.away m hdistance) (hm.away n hdistance.symm)
  rcases abs_eq_abs.1 habs with heq | rfl
  · exact heq
  · -- Two opposite integers are equally near to zero only, and zero is nearer to it.
    have hzero := hn.nearest 0
    push_cast at hdistance hzero
    rcases abs_eq_abs.1 hdistance with h | h
    · have : (n : ℚ) = 0 := by linarith
      have : n = 0 := by exact_mod_cast this
      rw [this, neg_zero]
    · have hq : q = 0 := by linarith
      rw [hq, zero_sub, abs_neg, sub_zero, abs_zero, abs_nonpos_iff] at hzero
      have : n = 0 := by exact_mod_cast hzero
      rw [this, neg_zero]

theorem neg (h : NearestAway q m) : NearestAway (-q) (-m) := by
  have hreflect (n : ℤ) : |-q - n| = |q - (-n : ℤ)| := by
    rw [← abs_neg]
    push_cast
    ring_nf
  constructor
  · intro n
    rw [hreflect, hreflect, neg_neg]
    exact h.nearest (-n)
  · intro n hn
    rw [hreflect, hreflect, neg_neg] at hn
    rw [abs_neg, ← abs_neg n]
    exact h.away (-n) hn

theorem neg_iff : NearestAway (-q) (-m) ↔ NearestAway q m :=
  ⟨fun h => by simpa using h.neg, neg⟩

theorem intCast (m : ℤ) : NearestAway m m where
  nearest n := by
    rw [sub_self, abs_zero]
    exact abs_nonneg _
  away n hn := by
    rw [sub_self, abs_zero, abs_eq_zero, sub_eq_zero] at hn
    have heq : m = n := by exact_mod_cast hn
    rw [heq]

theorem of_floor (hq : 0 ≤ q) (hlow : (m : ℚ) ≤ q + 1 / 2) (hhigh : q + 1 / 2 < m + 1) :
    NearestAway q m := by
  have hhalf : |q - m| ≤ 1 / 2 := abs_le.2 ⟨by linarith, by linarith⟩
  have hnonneg : 0 ≤ m := by
    have hpos : (-1 : ℚ) < m := by linarith
    have : -1 < m := by exact_mod_cast hpos
    omega
  -- What lies above `m` is further than a half away, what lies below at least a half.
  have habove {n : ℤ} (hn : m < n) : 1 / 2 < |q - n| := by
    have hle : (m + 1 : ℚ) ≤ n := by exact_mod_cast hn
    have := neg_abs_le (q - n)
    linarith
  have hbelow {n : ℤ} (hn : n < m) : q - n = |q - n| ∧ 1 / 2 ≤ |q - n| := by
    have hle : (n + 1 : ℚ) ≤ m := by exact_mod_cast hn
    have hpos : 0 ≤ q - n := by linarith
    rw [abs_of_nonneg hpos]
    exact ⟨rfl, by linarith⟩
  constructor
  · intro n
    rcases lt_trichotomy n m with hn | rfl | hn
    · exact hhalf.trans (hbelow hn).2
    · exact le_rfl
    · exact hhalf.trans (habove hn).le
  · intro n hdistance
    rcases lt_trichotomy n m with hn | rfl | hn
    · have hzero : (-1 : ℚ) < n := by
        have := (hbelow hn).1
        linarith
      have : -1 < n := by exact_mod_cast hzero
      rw [abs_of_nonneg hnonneg, abs_of_nonneg (by omega)]
      exact hn.le
    · exact le_rfl
    · have := habove hn
      linarith

theorem of_quotient (num : Nat) {den : Nat} (hden : 0 < den) :
    NearestAway (num / den) ((2 * num + den) / (2 * den) : Nat) := by
  have hden' : (0 : ℚ) < den := Nat.cast_pos.2 hden
  have hlow := Nat.div_mul_le_self (2 * num + den) (2 * den)
  have hhigh := (Nat.div_lt_iff_lt_mul (Nat.mul_pos (by decide) hden)).1
    (Nat.lt_succ_self ((2 * num + den) / (2 * den)))
  have hhalf : (num / den + 1 / 2 : ℚ) = (2 * num + den) / (2 * den) := by field_simp
  generalize (2 * num + den) / (2 * den) = m at hlow hhigh ⊢
  refine of_floor (by positivity) ?_ ?_
  · rw [hhalf, le_div_iff₀ (by positivity)]
    exact_mod_cast hlow
  · rw [hhalf, div_lt_iff₀ (by positivity)]
    exact_mod_cast hhigh

theorem abs_sub_le (h : NearestAway q m) : |q - m| ≤ 1 / 2 :=
  (h.nearest (round q)).trans (abs_sub_round q)

end NearestAway

/-! ## Rounding to a double -/

namespace Binary64

def toRat (x : Binary64) : ℚ :=
  x.toUnits / unitsPerOne

theorem unitsPerOne_cast_pos : (0 : ℚ) < unitsPerOne :=
  Nat.cast_pos.2 unitsPerOne_pos

theorem abs_toRat (x : Binary64) : |x.toRat| = x.units / unitsPerOne := by
  rw [toRat, abs_div, abs_of_pos unitsPerOne_cast_pos, toUnits]
  split
  · push_cast
    rw [abs_neg, abs_of_nonneg (Nat.cast_nonneg _)]
  · push_cast
    rw [abs_of_nonneg (Nat.cast_nonneg _)]

theorem toRat_eq (x : Binary64) : x.toRat = if x.negative then -|x.toRat| else |x.toRat| := by
  rw [abs_toRat, toRat, toUnits]
  split
  · push_cast
    rw [neg_div]
  · push_cast
    rfl

theorem toRat_of_nonneg {x : Binary64} (h : x.negative = false) : x.toRat = x.units / unitsPerOne := by
  rw [toRat_eq, h, if_neg Bool.false_ne_true, abs_toRat]

theorem natAbs_toUnits (x : Binary64) : x.toUnits.natAbs = x.units := by
  unfold toUnits
  split <;> omega

theorem round?_negative {negative : Bool} {num den : Nat} {y : Binary64}
    (h : round? negative num den = some y) : y.negative = negative := by
  unfold round? at h
  split at h
  · cases h
    rfl
  · cases h

theorem round?_of_representable (negative : Bool) {units : Nat} (h : Representable units) :
    round? negative units 1 = some ⟨negative, units, h⟩ := by
  obtain ⟨significand, shift, hsignificand, hshift, hunits⟩ := id h
  have hle : shiftFor units 1 ≤ shift := by
    rw [shiftFor, Nat.div_one]
    have hlt : units < twoPow (53 + shift) := by
      rw [hunits, twoPow_add]
      exact Nat.mul_lt_mul_of_pos_right hsignificand (twoPow_pos shift)
    have := log2_lt_of_lt (by omega) hlt
    omega
  -- So the shift of the rounding divides the magnitude.
  obtain ⟨extra, hextra⟩ := Nat.exists_eq_add_of_le hle
  have hquotient : units = significand * twoPow extra * twoPow (shiftFor units 1) := by
    rw [Nat.mul_assoc, ← twoPow_add, Nat.add_comm extra, ← hextra]
    exact hunits
  have hnearest := nearestEven_mul_self (significand * twoPow extra) (twoPow_pos (shiftFor units 1))
  rw [← hquotient, ← Nat.one_mul (twoPow (shiftFor units 1))] at hnearest
  have hfits : shiftFor units 1 < 2045 ∨ (shiftFor units 1 = 2045 ∧
      nearestEven units (1 * twoPow (shiftFor units 1)) < twoPow 53) := by
    rw [hnearest]
    rcases hle.lt_or_eq with hlt | heq
    · exact .inl (by omega)
    · have hnone : extra = 0 := by omega
      rw [hnone, twoPow_zero, Nat.mul_one]
      omega
  rw [round?, dif_pos hfits, Option.some_inj]
  refine ext_units rfl ?_
  simp only [hnearest]
  exact hquotient.symm

/-- Rounding moves a magnitude by no more than its `2 ^ 53`rd part. -/
theorem round?_near {negative : Bool} {num : Nat} {y : Binary64}
    (h : round? negative num 1 = some y) :
    num * twoPow 53 ≤ y.units * twoPow 53 + num ∧ y.units * twoPow 53 ≤ num * twoPow 53 + num := by
  have hunits : y.units =
      nearestEven num (twoPow (shiftFor num 1)) * twoPow (shiftFor num 1) := by
    unfold round? at h
    split at h
    · cases h
      simp only [Nat.one_mul]
    · cases h
  have hnear := nearestEven_near num (twoPow_pos (shiftFor num 1))
  rw [← hunits] at hnear
  rw [show twoPow 53 = 9007199254740992 from rfl]
  rcases Nat.eq_zero_or_pos (shiftFor num 1) with hzero | hpos
  · rw [hzero, twoPow_zero] at hnear
    omega
  · have hlog : num.log2 = 52 + shiftFor num 1 := by
      rw [shiftFor, Nat.div_one] at hpos ⊢
      omega
    have hnum : num ≠ 0 := by
      rintro rfl
      cases hpos
    have hle := twoPow_log2_le hnum
    rw [hlog, twoPow_add, show twoPow 52 = 4503599627370496 from rfl] at hle
    omega

theorem round?_toRat_near {num : Nat} {y : Binary64} (h : round? false num 1 = some y) :
    |y.toRat - num / unitsPerOne| ≤ num / unitsPerOne / 2 ^ 53 := by
  have hpos := unitsPerOne_cast_pos
  obtain ⟨hlow, hhigh⟩ := round?_near h
  rw [show twoPow 53 = 9007199254740992 from rfl] at hlow hhigh
  have hlow' : (num * 9007199254740992 : ℚ) ≤ y.units * 9007199254740992 + num := by
    exact_mod_cast hlow
  have hhigh' : (y.units * 9007199254740992 : ℚ) ≤ num * 9007199254740992 + num := by
    exact_mod_cast hhigh
  rw [toRat_of_nonneg (round?_negative h), ← sub_div, abs_div, abs_of_pos hpos, div_right_comm,
    div_le_div_iff_of_pos_right hpos, abs_le]
  constructor <;> linarith

def largest : Binary64 :=
  ⟨false, (twoPow 53 - 1) * twoPow 2045, twoPow 53 - 1, 2045, by decide, le_rfl, rfl⟩

theorem exists_round? {negative : Bool} {num : Nat} (h : num ≤ largest.units) :
    ∃ y, round? negative num 1 = some y := by
  have hshift : shiftFor num 1 ≤ 2045 := by
    have hlt : num < twoPow (53 + 2045) := by
      rw [twoPow_add]
      exact h.trans_lt (Nat.mul_lt_mul_of_pos_right (by decide) (twoPow_pos 2045))
    have := log2_lt_of_lt (by decide) hlt
    rw [shiftFor, Nat.div_one]
    omega
  refine ⟨_, dif_pos ?_⟩
  rcases hshift.lt_or_eq with hlt | heq
  · exact .inl hlt
  · refine .inr ⟨heq, ?_⟩
    rw [heq, Nat.one_mul]
    calc nearestEven num (twoPow 2045)
        ≤ nearestEven largest.units (twoPow 2045) := nearestEven_mono h _
      _ = twoPow 53 - 1 := nearestEven_mul_self _ (twoPow_pos 2045)
      _ < twoPow 53 := by decide

end Binary64

/-! ## The scaled double -/

/-- `text` is the right one for `x` with `k` decimals: it is that of the integer nearest to
`10 ^ k` times the exact value, halves away from zero. -/
def RoundsTo (x : Binary64) (k : Nat) (text : String) : Prop :=
  ∃ m, NearestAway (x.toRat * 10 ^ k) m ∧ Written m k text

section Scaled

variable {x y : Binary64} {k : Nat}

theorem nearestAway_roundMagnitude (y : Binary64) : NearestAway |y.toRat| (roundMagnitude y) := by
  rw [Binary64.abs_toRat, roundMagnitude]
  exact NearestAway.of_quotient y.units unitsPerOne_pos

theorem nearestAway_signed_iff {n : Nat} :
    NearestAway (x.toRat * 10 ^ k) (signed x n) ↔ NearestAway (|x.toRat| * 10 ^ k) n := by
  have hrat := x.toRat_eq
  unfold signed
  split at hrat
  · rename_i hsign
    rw [if_pos hsign, hrat, abs_neg, abs_abs, neg_mul, NearestAway.neg_iff]
  · rename_i hsign
    rw [if_neg hsign, ← hrat]

theorem abs_signed_sub (x : Binary64) (n k : Nat) :
    |(signed x n : ℚ) - x.toRat * 10 ^ k| = |(n : ℚ) - |x.toRat| * 10 ^ k| := by
  have hrat := x.toRat_eq
  unfold signed
  split at hrat
  · rename_i hsign
    rw [if_pos hsign, hrat, abs_neg, abs_abs, ← abs_neg]
    push_cast
    ring_nf
  · rename_i hsign
    rw [if_neg hsign, ← hrat]
    push_cast
    rfl

theorem abs_toRat_mul (x : Binary64) (k : Nat) :
    |x.toRat| * 10 ^ k = (x.units * tenPow k : Nat) / (Binary64.unitsPerOne : ℚ) := by
  have hpower : tenPow k = 10 ^ k := rfl
  rw [Binary64.abs_toRat, hpower]
  push_cast
  ring

theorem abs_toRat_scaled (h : scaleByTen? x k = some y) : |y.toRat| = y.toRat := by
  rw [Binary64.abs_toRat, Binary64.toRat_of_nonneg (Binary64.round?_negative h)]

/-- The text is the right one exactly when the scaled double, though it is rounded, is nearest to the
same integer as the exact product. -/
theorem roundsTo_grouped_iff : RoundsTo x k (grouped x k) ↔
    ∃ y n, scaleByTen? x k = some y ∧ NearestAway (|x.toRat| * 10 ^ k) n ∧
      NearestAway y.toRat n := by
  constructor
  · rintro ⟨m, hm, hwritten⟩
    cases hscaled : scaleByTen? x k with
    | none => exact absurd hwritten (not_written_grouped hscaled m)
    | some y =>
      obtain rfl := hwritten.unique (written_grouped hscaled)
      have hround := nearestAway_roundMagnitude y
      rw [abs_toRat_scaled hscaled] at hround
      exact ⟨y, _, rfl, nearestAway_signed_iff.1 hm, hround⟩
  · rintro ⟨y, n, hscaled, hexact, hrounded⟩
    have hround := nearestAway_roundMagnitude y
    rw [abs_toRat_scaled hscaled] at hround
    obtain rfl := hrounded.unique hround
    exact ⟨_, nearestAway_signed_iff.2 hexact, written_grouped hscaled⟩

/-- A product that is a double is rounded once only. -/
theorem roundsTo_grouped (h : Representable (x.units * tenPow k)) :
    RoundsTo x k (grouped x k) := by
  have hscaled := Binary64.round?_of_representable false h
  have hround := nearestAway_roundMagnitude ⟨false, _, h⟩
  refine roundsTo_grouped_iff.2 ⟨_, _, hscaled, ?_, abs_toRat_scaled hscaled ▸ hround⟩
  rw [abs_toRat_mul]
  rwa [Binary64.abs_toRat] at hround

/-- Up to the largest double there is a text, and rounding twice does not take it much further off. -/
theorem exists_written_grouped (h : |x.toRat| * 10 ^ k ≤ Binary64.largest.toRat) :
    ∃ m, Written m k (grouped x k) ∧
      |(m : ℚ) - x.toRat * 10 ^ k| ≤ 1 / 2 + |x.toRat| * 10 ^ k / 2 ^ 53 := by
  have hle : x.units * tenPow k ≤ Binary64.largest.units := by
    rw [abs_toRat_mul, Binary64.toRat_of_nonneg (x := Binary64.largest) rfl,
      div_le_div_iff_of_pos_right Binary64.unitsPerOne_cast_pos] at h
    exact_mod_cast h
  obtain ⟨y, hscaled⟩ := Binary64.exists_round? hle
  refine ⟨_, written_grouped hscaled, ?_⟩
  have hround := (nearestAway_roundMagnitude y).abs_sub_le
  rw [abs_toRat_scaled hscaled, Int.cast_natCast] at hround
  have hnear := Binary64.round?_toRat_near hscaled
  rw [← abs_toRat_mul] at hnear
  rw [abs_signed_sub]
  calc |(roundMagnitude y : ℚ) - |x.toRat| * 10 ^ k|
      ≤ |(roundMagnitude y : ℚ) - y.toRat| + |y.toRat - |x.toRat| * 10 ^ k| := abs_sub_le _ _ _
    _ ≤ 1 / 2 + |x.toRat| * 10 ^ k / 2 ^ 53 := by
      rw [abs_sub_comm (roundMagnitude y : ℚ)]
      exact add_le_add hround hnear

/-! ## Integers -/

theorem representable_ones {n : Nat} (h : n ≤ twoPow 53) :
    Representable (n * Binary64.unitsPerOne) := by
  rcases h.lt_or_eq with hlt | rfl
  · exact ⟨n, 1074, hlt, by decide, rfl⟩
  · refine ⟨twoPow 52, 1075, by decide, by decide, ?_⟩
    rw [Binary64.unitsPerOne, ← twoPow_add, ← twoPow_add]

theorem exists_ofInt? {n : Int} (h : n.natAbs ≤ twoPow 53) :
    ∃ x, Binary64.ofInt? n = some x ∧ x.toUnits = n * Binary64.unitsPerOne ∧ x.toRat = n := by
  obtain ⟨x, hx, hunits⟩ := Option.map_eq_some_iff.1 (toUnits_ofInt? (h.trans_lt (by decide)))
  rw [roundInt_of_le h] at hunits
  refine ⟨x, hx, hunits, ?_⟩
  rw [Binary64.toRat, hunits, Int.cast_mul, Int.cast_natCast,
    mul_div_cancel_right₀ _ Binary64.unitsPerOne_cast_pos.ne']

/-- An integer whose digits and decimals fit 53 bits is written with its own digits and with zeros
for its decimals. -/
theorem written_grouped_of_toUnits {n : Int} (h : n.natAbs * tenPow k ≤ twoPow 53)
    (hunits : x.toUnits = n * Binary64.unitsPerOne) (hrat : x.toRat = n) :
    Written (n * 10 ^ k) k (grouped x k) := by
  have hmagnitude : x.units * tenPow k = n.natAbs * tenPow k * Binary64.unitsPerOne := by
    rw [← Binary64.natAbs_toUnits, hunits, Int.natAbs_mul, Int.natAbs_natCast, Nat.mul_right_comm]
  have hproduct : Representable (x.units * tenPow k) := by
    rw [hmagnitude]
    exact representable_ones h
  obtain ⟨m, hm, hwritten⟩ := roundsTo_grouped hproduct
  have hself := NearestAway.intCast (n * 10 ^ k)
  rw [hrat] at hm
  push_cast at hself
  rwa [hm.unique hself] at hwritten

end Scaled

end Templating.Number
