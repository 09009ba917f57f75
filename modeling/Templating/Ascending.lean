/-!
# Ascending lists

Looks a number up in an ascending list by halving what is left of it. The index that is found is the
number of entries below the one sought (`index_search`), whether that stands in the list or not.
-/

namespace Templating.Ascending

/-- Where a number stands in an ascending list, or where it would have to be put in. -/
inductive Spot where
  | taken (i : Nat)
  | free (i : Nat)
deriving DecidableEq, Repr

def Spot.index : Spot → Nat
  | .taken i => i
  | .free i => i

/-- Searches a list that stands behind `base` other entries. Every round halves it, so as many rounds
as it has entries are enough. -/
def searchFrom (x : Nat) : Nat → Nat → List Nat → Spot
  | 0, base, _ => .free base
  | rounds + 1, base, xs =>
    let half := xs.length / 2
    match xs.drop half with
    | [] => .free base
    | y :: above =>
      if y = x then .taken (base + half)
      else if y < x then searchFrom x rounds (base + half + 1) above
      else searchFrom x rounds base (xs.take half)

def search (xs : List Nat) (x : Nat) : Spot :=
  searchFrom x xs.length 0 xs

theorem length_takeWhile_cut {below above : List Nat} {y : Nat} (x : Nat)
    (h : (below ++ y :: above).Pairwise (· < ·)) :
    ((below ++ y :: above).takeWhile (· < x)).length =
      if y = x then below.length
      else if y < x then below.length + 1 + (above.takeWhile (· < x)).length
      else (below.takeWhile (· < x)).length := by
  have hbelow : ∀ z ∈ below, z < y := fun z hz =>
    (List.pairwise_append.1 h).2.2 z hz y List.mem_cons_self
  rcases Nat.lt_trichotomy y x with hlt | rfl | hgt
  · rw [if_neg (Nat.ne_of_lt hlt), if_pos hlt, List.takeWhile_append_of_pos,
      List.takeWhile_cons_of_pos (by simpa using hlt), List.length_append, List.length_cons]
    · omega
    · intro z hz
      simpa using Nat.lt_trans (hbelow z hz) hlt
  · rw [if_pos rfl, List.takeWhile_append_of_pos, List.takeWhile_cons_of_neg (by simp),
      List.append_nil]
    intro z hz
    simpa using hbelow z hz
  · rw [if_neg (Nat.ne_of_gt hgt), if_neg (Nat.not_lt_of_gt hgt), List.takeWhile_append,
      List.takeWhile_cons_of_neg (by simp; omega), List.append_nil]
    split
    · rename_i hall
      rw [hall]
    · rfl

theorem index_searchFrom {x rounds base : Nat} {xs : List Nat} (hrounds : xs.length ≤ rounds)
    (h : xs.Pairwise (· < ·)) :
    (searchFrom x rounds base xs).index = base + (xs.takeWhile (· < x)).length := by
  induction rounds generalizing base xs with
  | zero =>
    obtain rfl := List.eq_nil_of_length_eq_zero (Nat.le_zero.1 hrounds)
    rfl
  | succ rounds ih =>
    have hcut := List.take_append_drop (xs.length / 2) xs
    have hhalf : (xs.take (xs.length / 2)).length = xs.length / 2 := by
      rw [List.length_take]
      omega
    rw [searchFrom]
    cases hdrop : xs.drop (xs.length / 2) with
    | nil =>
      have hlength := congrArg List.length hdrop
      rw [List.length_drop, List.length_nil] at hlength
      obtain rfl := List.eq_nil_of_length_eq_zero (show xs.length = 0 by omega)
      rfl
    | cons y above =>
      rw [hdrop] at hcut
      have hlength := congrArg List.length hcut
      rw [List.length_append, List.length_cons, hhalf] at hlength
      have hparts := List.pairwise_append.1 (hcut.symm ▸ h)
      have hcount := length_takeWhile_cut x (hcut.symm ▸ h)
      rw [hcut, hhalf] at hcount
      simp only [hcount]
      split
      · rfl
      · split
        · rw [ih (by omega) (List.pairwise_cons.1 hparts.2.1).2]
          omega
        · exact ih (by omega) hparts.1

theorem index_search {xs : List Nat} (x : Nat) (h : xs.Pairwise (· < ·)) :
    (search xs x).index = (xs.takeWhile (· < x)).length := by
  rw [search, index_searchFrom (Nat.le_refl _) h, Nat.zero_add]

end Templating.Ascending
