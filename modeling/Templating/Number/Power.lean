/-!
# Powers of two and ten

Doubles are counted with powers of two and decimals with powers of ten.
-/

namespace Templating.Number

def twoPow (n : Nat) : Nat := Nat.pow 2 n

def tenPow (n : Nat) : Nat := Nat.pow 10 n

@[simp] theorem twoPow_zero : twoPow 0 = 1 := rfl

theorem twoPow_succ (n : Nat) : twoPow (n + 1) = 2 * twoPow n := Nat.pow_succ'

theorem twoPow_add (m n : Nat) : twoPow (m + n) = twoPow m * twoPow n := Nat.pow_add 2 m n

theorem twoPow_pos (n : Nat) : 0 < twoPow n := Nat.two_pow_pos n

theorem twoPow_le_twoPow {m n : Nat} (h : m ≤ n) : twoPow m ≤ twoPow n :=
  Nat.pow_le_pow_right (Nat.zero_lt_succ 1) h

theorem lt_twoPow_log2 (n : Nat) : n < twoPow (n.log2 + 1) := Nat.lt_log2_self

theorem twoPow_log2_le {n : Nat} (h : n ≠ 0) : twoPow n.log2 ≤ n := Nat.log2_self_le h

theorem le_log2_of_twoPow_le {k n : Nat} (h : twoPow k ≤ n) : k ≤ n.log2 :=
  (Nat.le_log2 (Nat.ne_of_gt (Nat.lt_of_lt_of_le (twoPow_pos k) h))).2 h

@[simp] theorem tenPow_zero : tenPow 0 = 1 := rfl

theorem tenPow_succ (n : Nat) : tenPow (n + 1) = 10 * tenPow n := Nat.pow_succ'

theorem tenPow_pos (n : Nat) : 0 < tenPow n := Nat.pow_pos (Nat.zero_lt_succ 9)

theorem twoPow_le_tenPow (n : Nat) : twoPow (3 * n) ≤ tenPow n := by
  rw [twoPow, tenPow, Nat.pow_eq, Nat.pow_eq, Nat.pow_mul]
  exact Nat.pow_le_pow_left (by decide) n

end Templating.Number
