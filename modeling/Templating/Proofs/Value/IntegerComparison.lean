import Mathlib
import Templating.Host.Builtins
import Templating.Proofs.Number.Significand
import Templating.Proofs.Value.StrictEquality

/-!
# Comparing integers

Strict equality compares integers as they are. Every other comparison, and with it the search for an
element of a list, goes by the nearest doubles, that is by the integers rounded to 53 bits
(`Comparison.holds_int`). Two different integers that round to the same one are therefore equal to
those, and in all other cases the integers are compared in their own order
(`Value.comparison_of_integers`).
-/

namespace Templating

open Number (roundInt)

def Number.FitsWord (n : Int) : Prop :=
  minInt64 ≤ n ∧ n ≤ maxUInt64

instance : DecidablePred Number.FitsWord := fun n =>
  inferInstanceAs (Decidable (Number.minInt64 ≤ n ∧ n ≤ Number.maxUInt64))

theorem Number.FitsWord.natAbs_lt {n : Int} (h : FitsWord n) : n.natAbs < twoPow 64 := by
  have hpow : twoPow 64 = 18446744073709551616 := rfl
  rw [FitsWord, minInt64, maxUInt64] at h
  omega

namespace Comparison

def holdsInt (op : Comparison) (m n : Int) : Bool :=
  match op with
  | .strictEq | .eq => m == n
  | .strictNe | .ne => m != n
  | .lt => m < n
  | .le => m ≤ n
  | .gt => n < m
  | .ge => n ≤ m

def isStrict : Comparison → Bool
  | .strictEq | .strictNe => true
  | _ => false

end Comparison

namespace Value

variable {a b : Int}

theorem numeral?_int (ha : Number.FitsWord a) :
    (int a).numeral? = some (roundInt a * Number.Binary64.unitsPerOne) :=
  Number.toUnits_ofInt? ha.natAbs_lt

theorem compare_mul_right {x y u : Int} (hu : 0 < u) : compare (x * u) (y * u) = compare x y := by
  obtain h | rfl | h := lt_trichotomy x y
  · rw [compare_lt_iff_lt.2 h, compare_lt_iff_lt.2 (Int.mul_lt_mul_of_pos_right h hu)]
  · rw [compare_eq_iff_eq.2 rfl, compare_eq_iff_eq.2 rfl]
  · rw [compare_gt_iff_gt.2 h, compare_gt_iff_gt.2 (Int.mul_lt_mul_of_pos_right h hu)]

theorem units_pos : (0 : Int) < Number.Binary64.unitsPerOne :=
  Int.natCast_pos.2 Number.unitsPerOne_pos

theorem looseEq_int (ha : Number.FitsWord a) (hb : Number.FitsWord b) :
    (int a).looseEq (int b) = (roundInt a == roundInt b) := by
  rw [looseEq_of_numeral? (numeral?_int ha) (numeral?_int hb), Bool.eq_iff_iff, beq_iff_eq,
    beq_iff_eq, mul_left_inj' units_pos.ne']

theorem order_int (ha : Number.FitsWord a) (hb : Number.FitsWord b) :
    (int a).order (int b) = compare (roundInt a) (roundInt b) := by
  rw [order_eq, numeral?_int ha, numeral?_int hb]
  exact compare_mul_right units_pos

theorem strictEq_int (a b : Int) : (int a).strictEq (int b) = (a == b) := by
  rw [int, int, strictEq, Number.strictEq]

end Value

/-- Between integers the strict operators go by the integers, and the others by the integers rounded
to 53 bits. -/
theorem Comparison.holds_int (op : Comparison) {a b : Int} (ha : Number.FitsWord a)
    (hb : Number.FitsWord b) :
    op.holds (.int a) (.int b) =
      if op.isStrict then op.holdsInt a b else op.holdsInt (roundInt a) (roundInt b) := by
  have hloose := Value.looseEq_int ha hb
  have horder := Value.order_int ha hb
  generalize roundInt a = x at *
  generalize roundInt b = y at *
  cases op with
  | strictEq | strictNe =>
    simp only [holds, Value.strictEq_int, isStrict, if_true, holdsInt, bne]
  | eq | ne =>
    simp only [holds, hloose, isStrict, Bool.false_eq_true, if_false, holdsInt, bne]
  | lt | le | gt | ge =>
    rw [Bool.eq_iff_iff]
    simp only [holds, horder, isStrict, Bool.false_eq_true, if_false, holdsInt, beq_iff_eq,
      bne_iff_ne, ne_eq, decide_eq_true_eq, compare_lt_iff_lt, compare_gt_iff_gt, not_lt]

/-- Integers of which the order is kept by rounding are compared alike before and after it. -/
theorem Comparison.holdsInt_roundInt (op : Comparison) {a b : Int}
    (h : a = b ∨ roundInt a ≠ roundInt b) :
    op.holdsInt (roundInt a) (roundInt b) = op.holdsInt a b := by
  have hab := Number.roundInt_mono (a := a) (b := b)
  have hba := Number.roundInt_mono (a := b) (b := a)
  have heq : roundInt a = roundInt b ↔ a = b := by grind
  have hle : roundInt a ≤ roundInt b ↔ a ≤ b := by grind
  have hge : roundInt b ≤ roundInt a ↔ b ≤ a := by grind
  rw [Bool.eq_iff_iff]
  cases op <;> simp only [holdsInt, beq_iff_eq, bne_iff_ne, ne_eq, decide_eq_true_eq, ← not_le, heq,
    hle, hge]

/-- Different integers stay different when one of them is below `2 ^ 53`, and when they are further
apart than one place of the largest of them. -/
theorem roundInt_ne_of_apart {a b : Int} (ha : Number.FitsWord a) (hb : Number.FitsWord b)
    (h : a.natAbs < 2 ^ 53 ∨ b.natAbs < 2 ^ 53 ∨ 2048 < (a - b).natAbs) :
    a = b ∨ roundInt a ≠ roundInt b := by
  refine or_iff_not_imp_left.2 fun hne => ?_
  obtain h | h | h := h
  · exact Number.roundInt_ne_of_lt h hne
  · exact (Number.roundInt_ne_of_lt h (Ne.symm hne)).symm
  · have hnear := Number.roundInt_near ha.natAbs_lt
    have hnear' := Number.roundInt_near hb.natAbs_lt
    omega

namespace Value

theorem inArray_int {a : Int} (ha : Number.FitsWord a) {haystack : Value} {ns : List Int}
    (hns : Builtins.elements? haystack = some (ns.map int))
    (hall : ∀ n ∈ ns, Number.FitsWord n ∧ (n = a ∨ roundInt n ≠ roundInt a)) :
    Builtins.inArray [.int a, haystack] = .ok (.bool (decide (a ∈ ns))) := by
  have hany : (ns.map int).any (·.looseEq (int a)) = decide (a ∈ ns) := by
    rw [Bool.eq_iff_iff, List.any_map, List.any_eq_true, decide_eq_true_eq]
    constructor
    · rintro ⟨n, hn, heq⟩
      obtain ⟨hword, hapart⟩ := hall n hn
      rw [Function.comp_apply, looseEq_int hword ha, beq_iff_eq] at heq
      rwa [← hapart.resolve_right (not_not.2 heq)]
    · intro hmem
      exact ⟨a, hmem, by rw [Function.comp_apply, looseEq_int ha ha, beq_self_eq_true]⟩
  simp only [Builtins.inArray, hns, hany]

/-- Two integers are compared as integers, by every operator, exactly when they are the same or round
to different doubles. They do when one of them is below `2 ^ 53` or when they are more than 2048 apart,
and an integer that is told apart so from those of a list or a map is found there exactly when it is
one of them. Whatever the integers are, strict equality is theirs, and no order is turned round. -/
theorem comparison_of_integers {a b : Int} (ha : Number.FitsWord a) (hb : Number.FitsWord b) :
    ((∀ op : Comparison, op.holds (.int a) (.int b) = op.holdsInt a b) ↔
        a = b ∨ roundInt a ≠ roundInt b) ∧
      (a.natAbs < 2 ^ 53 ∨ b.natAbs < 2 ^ 53 ∨ 2048 < (a - b).natAbs →
        a = b ∨ roundInt a ≠ roundInt b) ∧
      (∀ (haystack : Value) (ns : List Int), Builtins.elements? haystack = some (ns.map int) →
        (∀ n ∈ ns, Number.FitsWord n ∧ (n = a ∨ roundInt n ≠ roundInt a)) →
          Builtins.inArray [.int a, haystack] = .ok (.bool (decide (a ∈ ns)))) ∧
      strictEq (.int a) (.int b) = (a == b) ∧
      (Comparison.lt.holds (.int a) (.int b) = true → a < b) ∧
      (a ≤ b → Comparison.le.holds (.int a) (.int b) = true) := by
  have hlt := Comparison.lt.holds_int ha hb
  have hle := Comparison.le.holds_int ha hb
  simp only [Comparison.isStrict, Bool.false_eq_true, if_false, Comparison.holdsInt] at hlt hle
  refine ⟨⟨fun h => ?_, fun h op => ?_⟩, roundInt_ne_of_apart ha hb,
    fun haystack ns => inArray_int ha, strictEq_int a b, fun h => ?_, fun h => ?_⟩
  · have heq : (roundInt a == roundInt b) = (a == b) :=
      (looseEq_int ha hb).symm.trans (h .eq)
    rw [Bool.eq_iff_iff, beq_iff_eq, beq_iff_eq] at heq
    exact or_iff_not_imp_left.2 fun hne => mt heq.1 hne
  · rw [op.holds_int ha hb, op.holdsInt_roundInt h, ite_self]
  · rw [hlt, decide_eq_true_eq] at h
    exact lt_of_not_ge fun hge => absurd (Number.roundInt_mono hge) (not_le.2 h)
  · rw [hle, decide_eq_true_eq]
    exact Number.roundInt_mono h

/-- The largest number with sign: it equals the next one and is below the one after 1025 more, and a
number below `2 ^ 53` is not found among others. -/
theorem comparison_of_integers_largest :
    let m : Int := 9223372036854775807
    let ns : List Int := [-9007199254740991, 9007199254740992, 18446744073709551615]
    Number.FitsWord m ∧ Number.FitsWord (m + 1026) ∧ roundInt m ≠ roundInt (m + 1026) ∧
      (∀ op : Comparison, op.holds (.int m) (.int (m + 1026)) = op.holdsInt m (m + 1026)) ∧
      Comparison.eq.holds (.int m) (.int (m + 1)) = true ∧
      Builtins.inArray [.int 9007199254740991, .list (ns.map int)] = .ok (.bool false) := by
  intro m ns
  have hm : Number.FitsWord m := by decide
  have hn : Number.FitsWord (m + 1026) := by decide
  have hne : roundInt m ≠ roundInt (m + 1026) := by decide +kernel
  have hequal : Comparison.eq.holds (.int m) (.int (m + 1)) = true := by decide +kernel
  have hsmall : Number.FitsWord 9007199254740991 := by decide
  have hall : ∀ n ∈ ns,
      Number.FitsWord n ∧ (n = 9007199254740991 ∨ roundInt n ≠ roundInt 9007199254740991) := by
    decide +kernel
  obtain ⟨hiff, -⟩ := comparison_of_integers hm hn
  obtain ⟨-, -, hfound, -⟩ := comparison_of_integers hsmall hm
  exact ⟨hm, hn, hne, hiff.2 (.inr hne), hequal, hfound (.list (ns.map int)) ns rfl hall⟩

/-- Beyond `2 ^ 53` a number and the next one are equal. -/
theorem not_comparison_of_integers :
    ¬∀ a b : Int, Number.FitsWord a → Number.FitsWord b →
      ∀ op : Comparison, op.holds (.int a) (.int b) = op.holdsInt a b := by
  intro h
  have heq := h 9007199254740993 9007199254740992 (by decide) (by decide) .eq
  revert heq
  decide +kernel

end Value

end Templating
