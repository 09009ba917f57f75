import Mathlib
import Templating.Number.Grouped
import Templating.Proofs.Expr.Spelling

/-!
# Fixed-point notation

A number with a fixed number `k` of decimals stands for a multiple `m / 10 ^ k`. `Written m k text`
says how such a text looks, with its digits before the point in groups of three, and that it is read
back as this multiple. `grouped` writes one for the integer that the scaled value was rounded to
(`written_grouped`); a value that is past the largest double once it is scaled has no such text
(`not_written_grouped`).
-/

namespace Templating.Number

/-! ## Groups of three -/

/-- `text` is the digits in groups of three, counted from the right, with a comma between any two
groups. Only the first group may be shorter, and it is not empty. -/
def GroupedAs (digits text : List Char) : Prop :=
  ∃ (first : List Char) (rest : List (List Char)),
    digits = first ++ rest.flatten ∧ text = first ++ rest.flatMap (',' :: ·) ∧
      first ≠ [] ∧ first.length ≤ 3 ∧ ∀ group ∈ rest, group.length = 3

theorem length_flatten_of_forall_length_eq {n : Nat} {groups : List (List Char)}
    (h : ∀ group ∈ groups, group.length = n) : groups.flatten.length = n * groups.length := by
  induction groups with
  | nil => rfl
  | cons group groups ih =>
    have hrest := ih fun other hother => h other (List.mem_cons_of_mem _ hother)
    rw [List.flatten_cons, List.length_append, h group List.mem_cons_self, hrest, List.length_cons,
      Nat.mul_succ, Nat.add_comm]

theorem groupedAs_groupDigits {ds : List Char} (h : ds ≠ []) : GroupedAs ds (groupDigits ds) := by
  induction ds with
  | nil => exact absurd rfl h
  | cons d ds ih =>
    by_cases hds : ds = []
    · subst hds
      exact ⟨[d], [], rfl, rfl, by simp, by simp, by simp⟩
    · obtain ⟨first, rest, hdigits, htext, hne, hlength, hrest⟩ := ih hds
      have hcount : ds.length = first.length + 3 * rest.length := by
        rw [hdigits, List.length_append, length_flatten_of_forall_length_eq hrest]
      have hpos := List.length_pos_iff.2 hne
      by_cases hthird : ds.length % 3 = 0
      · -- The group that was in front is complete, so the digit begins another one.
        have hfull : first.length = 3 := by omega
        refine ⟨[d], first :: rest, by rw [hdigits]; rfl, ?_, by simp, by simp, ?_⟩
        · rw [groupDigits, if_pos ⟨hds, hthird⟩, htext]
          rfl
        · exact List.forall_mem_cons.2 ⟨hfull, hrest⟩
      · refine ⟨d :: first, rest, by rw [hdigits]; rfl, ?_, by simp, ?_, hrest⟩
        · rw [groupDigits, if_neg fun hand => hthird hand.2, htext]
          rfl
        · rw [List.length_cons]
          omega

theorem filter_ne_comma {ds : List Char} (h : ∀ c ∈ ds, c.isDigit = true) :
    ds.filter (· ≠ ',') = ds := by
  refine List.filter_eq_self.2 fun c hc => decide_eq_true ?_
  rintro rfl
  cases h ',' hc

namespace GroupedAs

variable {digits text : List Char}

theorem filter_ne_comma (h : GroupedAs digits text) (hdigits : ∀ c ∈ digits, c.isDigit = true) :
    text.filter (· ≠ ',') = digits := by
  obtain ⟨first, rest, rfl, rfl, -, -, -⟩ := h
  have hrest : (rest.flatMap (',' :: ·)).filter (· ≠ ',') = rest.flatten := by
    rw [List.filter_flatMap, List.flatten_eq_flatMap]
    refine List.flatMap_congr fun group hgroup => ?_
    rw [List.filter_cons_of_neg (by decide)]
    refine Number.filter_ne_comma fun c hc => hdigits c ?_
    exact List.mem_append_right _ (List.mem_flatten.2 ⟨group, hgroup, hc⟩)
  rw [List.filter_append, hrest,
    Number.filter_ne_comma fun c hc => hdigits c (List.mem_append_left _ hc)]

theorem eq_comma_or_mem (h : GroupedAs digits text) {c : Char} (hc : c ∈ text) :
    c = ',' ∨ c ∈ digits := by
  obtain ⟨first, rest, rfl, rfl, -, -, -⟩ := h
  rcases List.mem_append.1 hc with hfirst | hrest
  · exact .inr (List.mem_append_left _ hfirst)
  · obtain ⟨group, hgroup, hmem⟩ := List.mem_flatMap.1 hrest
    refine (List.mem_cons.1 hmem).imp_right fun hmem => ?_
    exact List.mem_append_right _ (List.mem_flatten.2 ⟨group, hgroup, hmem⟩)

end GroupedAs

theorem mem_groupDigits {c : Char} {ds : List Char} (h : c ∈ ds) : c ∈ groupDigits ds := by
  induction ds with
  | nil => exact h
  | cons d ds ih =>
    rw [groupDigits]
    rcases List.mem_cons.1 h with rfl | h
    · exact List.mem_cons_self
    · exact List.mem_cons_of_mem _ (List.mem_append_right _ (ih h))

/-! ## The digits of a quotient by a power of ten -/

/-- The last `k` digits of a number, zeros in front if it has fewer. -/
def lastDigits : (k n : Nat) → List Char
  | 0, _ => []
  | k + 1, n => lastDigits k (n / 10) ++ [(n % 10).digitChar]

@[simp] theorem length_lastDigits (k n : Nat) : (lastDigits k n).length = k := by
  induction k generalizing n with
  | zero => rfl
  | succ k ih => rw [lastDigits, List.length_append, ih, List.length_singleton]

theorem isDigit_toDigits {n : Nat} {c : Char} (h : c ∈ Nat.toDigits 10 n) : c.isDigit = true :=
  Nat.isDigit_of_mem_toDigits (by decide) (by decide) h

theorem isDigit_lastDigits {k n : Nat} {c : Char} (h : c ∈ lastDigits k n) : c.isDigit = true := by
  induction k generalizing n with
  | zero => cases h
  | succ k ih =>
    rw [lastDigits, List.mem_append, List.mem_singleton] at h
    rcases h with h | rfl
    · exact ih h
    · refine isDigit_toDigits (n := n % 10) ?_
      rw [Nat.toDigits_of_lt_base (Nat.mod_lt n (by decide))]
      exact List.mem_singleton_self _

theorem padDigits_append_singleton (k : Nat) (ds : List Char) (d : Char) :
    padDigits (k + 1) (ds ++ [d]) = padDigits k ds ++ [d] := by
  rw [padDigits, padDigits, List.length_append, List.length_singleton, Nat.add_sub_add_right,
    List.append_assoc]

/-- With zeros in front as needed, the digits of a number are those of its quotient by a power of ten
and those that are cut off. -/
theorem padDigits_toDigits (k n : Nat) :
    padDigits k (Nat.toDigits 10 n) = Nat.toDigits 10 (n / 10 ^ k) ++ lastDigits k n := by
  induction k generalizing n with
  | zero =>
    have hpos : 0 < (Nat.toDigits 10 n).length := Nat.length_toDigits_pos
    have hnone : 0 + 1 - (Nat.toDigits 10 n).length = 0 := by omega
    rw [padDigits, hnone, Nat.pow_zero, Nat.div_one, lastDigits, List.append_nil]
    rfl
  | succ k ih =>
    have hdiv : n / 10 ^ (k + 1) = n / 10 / 10 ^ k := by rw [Nat.pow_succ', Nat.div_div_eq_div_mul]
    rw [lastDigits, ← List.append_assoc, hdiv, ← ih, ← padDigits_append_singleton]
    by_cases hn : n < 10
    · have hquotient : n / 10 = 0 := Nat.div_eq_of_lt hn
      rw [Nat.toDigits_of_lt_base hn, hquotient, Nat.mod_eq_of_lt hn, Nat.toDigits_zero]
      -- One digit alone is padded like a zero with this digit behind it.
      simp [padDigits, List.replicate_succ']
    · rw [← Nat.toDigits_of_base_le (by decide) (by omega)]

theorem digitsValue_padDigits (k n : Nat) : digitsValue (padDigits k (Nat.toDigits 10 n)) = n := by
  have hzeros : Nat.ofDigitChars 10 (List.replicate (k + 1 - (Nat.toDigits 10 n).length) '0') 0 = 0 := by
    rw [Nat.ofDigitChars_replicate_zero, Nat.mul_zero]
  rw [digitsValue_eq, padDigits]
  change Nat.ofDigitChars 10 (_ ++ _) 0 = n
  rw [Nat.ofDigitChars_append, hzeros, Nat.ofDigitChars_toDigits (by decide) (by decide)]

/-! ## Reading back -/

theorem readSign_signText (negative : Bool) {d : Char} (hd : d.isDigit = true) (cs : List Char) :
    readSign (signText negative ++ d :: cs) = (negative, d :: cs) := by
  cases negative with
  | true => rfl
  | false =>
    rw [signText, if_neg (by decide), List.nil_append]
    unfold readSign
    split
    · rename_i hcons
      cases (List.cons.inj hcons).1
      cases hd
    · rename_i hcons
      cases (List.cons.inj hcons).1
      cases hd
    · rfl

/-- A text of digits, with the point and more digits behind it or not, says what all of them say,
counted in units of the last. -/
theorem read?_digits (negative : Bool) {whole fraction : List Char} (hne : whole ≠ [])
    (hwhole : ∀ c ∈ whole, c.isDigit = true) (hfraction : ∀ c ∈ fraction, c.isDigit = true) :
    Decimal.read? (signText negative ++ whole ++ if fraction = [] then [] else '.' :: fraction) =
      some ⟨negative, digitsValue (whole ++ fraction), -(fraction.length : Int)⟩ := by
  obtain ⟨d, ds, rfl⟩ := List.exists_cons_of_ne_nil hne
  have hsign := readSign_signText negative (hwhole d List.mem_cons_self)
  have hall := List.all_eq_true.2 hwhole
  have hend : ∀ c ∈ ([] : List Char).head?, c.isDigit = false := nofun
  by_cases hempty : fraction = []
  · subst hempty
    obtain ⟨htake, hdrop⟩ := Expr.takeWhile_append_stop hall hend
    rw [List.append_nil] at htake hdrop
    simp only [Decimal.read?, if_true, List.append_nil, hsign, htake, hdrop, readFraction,
      readExponent?]
    simp
  · have hpoint : ∀ c ∈ ('.' :: fraction).head?, c.isDigit = false := by
      rintro _ ⟨⟩
      rfl
    obtain ⟨htake, hdrop⟩ := Expr.takeWhile_append_stop hall hpoint
    obtain ⟨htake', hdrop'⟩ := Expr.takeWhile_append_stop (List.all_eq_true.2 hfraction) hend
    rw [List.append_nil] at htake' hdrop'
    rw [List.cons_append] at htake hdrop
    rw [if_neg hempty, List.append_assoc, List.cons_append]
    simp only [Decimal.read?, hsign, htake, hdrop, readFraction, htake', hdrop', readExponent?]
    simp

/-! ## What is written -/

/-- `text` is the multiple `m / 10 ^ k` in fixed-point notation: a minus sign exactly if `m` is
negative, the digits of the integer part in groups, and `k` digits behind a point unless there are to
be none. Without its commas it is read back as this multiple. -/
structure Written (m : Int) (k : Nat) (text : String) : Prop where
  form : ∃ whole fraction, GroupedAs (Nat.toDigits 10 (m.natAbs / 10 ^ k)) whole ∧
    fraction.length = k ∧ (∀ c ∈ fraction, c.isDigit = true) ∧
    text.toList =
      signText (decide (m < 0)) ++ whole ++ if k = 0 then [] else '.' :: fraction
  value : Decimal.read? (text.toList.filter (· ≠ ',')) =
    some ⟨decide (m < 0), m.natAbs, -(k : Int)⟩

namespace Written

variable {m n : Int} {k : Nat} {text : String}

/-- A text is that of one multiple at most. -/
theorem unique (h : Written m k text) (h' : Written n k text) : m = n := by
  have hvalue := Option.some.inj (h.value.symm.trans h'.value)
  injection hvalue with hsign hdigits
  rw [decide_eq_decide] at hsign
  omega

theorem mem_toList (h : Written m k text) {c : Char} (hc : c ∈ text.toList) :
    c = '-' ∨ c = ',' ∨ c = '.' ∨ c.isDigit = true := by
  obtain ⟨whole, fraction, hwhole, -, hfraction, htext⟩ := h.form
  rw [htext, List.mem_append, List.mem_append] at hc
  rcases hc with (hc | hc) | hc
  · unfold signText at hc
    split at hc
    · exact .inl (List.mem_singleton.1 hc)
    · cases hc
  · refine .inr ((hwhole.eq_comma_or_mem hc).imp_right fun hdigit => .inr ?_)
    exact isDigit_toDigits hdigit
  · split at hc
    · cases hc
    · rcases List.mem_cons.1 hc with rfl | hc
      · exact .inr (.inr (.inl rfl))
      · exact .inr (.inr (.inr (hfraction c hc)))

end Written

def signed (x : Binary64) (n : Nat) : Int :=
  if x.negative then -(n : Int) else n

theorem natAbs_signed (x : Binary64) (n : Nat) : (signed x n).natAbs = n := by
  unfold signed
  split <;> omega

theorem decide_signed_lt_zero (x : Binary64) (n : Nat) :
    decide (signed x n < 0) = (x.negative && n != 0) := by
  unfold signed
  cases x.negative with
  | true =>
    rw [if_pos rfl, Bool.true_and, Bool.eq_iff_iff, decide_eq_true_eq, bne_iff_ne]
    omega
  | false =>
    rw [if_neg (by decide), Bool.false_and, decide_eq_false_iff_not]
    omega

theorem toList_grouped {x : Binary64} {k n : Nat} (hdigits : scaledDigits x k = Nat.toDigits 10 n)
    (hnonzero : scaledNonzero x k = (n != 0)) :
    (grouped x k).toList = signText (decide (signed x n < 0)) ++
      groupDigits (Nat.toDigits 10 (n / 10 ^ k)) ++ if k = 0 then [] else '.' :: lastDigits k n := by
  have hlength : (Nat.toDigits 10 (n / 10 ^ k) ++ lastDigits k n).length - k =
      (Nat.toDigits 10 (n / 10 ^ k)).length := by
    rw [List.length_append, length_lastDigits, Nat.add_sub_cancel]
  simp only [grouped, hdigits, hnonzero, padDigits_toDigits, hlength, List.take_left, List.drop_left,
    String.toList_ofList, decide_signed_lt_zero]

/-- As long as the scaled value is no more than the largest double, the text is that of the integer
it is rounded to. -/
theorem written_grouped {x y : Binary64} {k : Nat} (h : scaleByTen? x k = some y) :
    Written (signed x (roundMagnitude y)) k (grouped x k) := by
  have hdigits : scaledDigits x k = Nat.toDigits 10 (roundMagnitude y) := by
    unfold scaledDigits
    rw [h]
  have hnonzero : scaledNonzero x k = (roundMagnitude y != 0) := by
    unfold scaledNonzero
    rw [h]
  generalize roundMagnitude y = n at hdigits hnonzero ⊢
  have htext := toList_grouped hdigits hnonzero
  have hgrouped := groupedAs_groupDigits (Nat.toDigits_ne_nil (n := n / 10 ^ k) (b := 10))
  have hwhole : ∀ c ∈ Nat.toDigits 10 (n / 10 ^ k), c.isDigit = true := fun _ => isDigit_toDigits
  have hfraction : ∀ c ∈ lastDigits k n, c.isDigit = true := fun _ => isDigit_lastDigits
  have hempty : lastDigits k n = [] ↔ k = 0 := by
    rw [← List.length_eq_zero_iff, length_lastDigits]
  refine ⟨⟨_, lastDigits k n, (natAbs_signed x n).symm ▸ hgrouped, length_lastDigits k n, hfraction,
    htext⟩, ?_⟩
  have hplain : (if k = 0 then [] else '.' :: lastDigits k n).filter (· ≠ ',') =
      if lastDigits k n = [] then [] else '.' :: lastDigits k n := by
    simp only [hempty]
    split
    · rfl
    · exact congrArg _ (filter_ne_comma hfraction)
  have hsign : (signText (decide (signed x n < 0))).filter (· ≠ ',') =
      signText (decide (signed x n < 0)) := by
    cases decide (signed x n < 0) <;> rfl
  rw [htext, List.filter_append, List.filter_append, hsign, hgrouped.filter_ne_comma hwhole, hplain,
    read?_digits _ Nat.toDigits_ne_nil hwhole hfraction, ← padDigits_toDigits,
    digitsValue_padDigits, length_lastDigits, natAbs_signed]

theorem mem_grouped {x : Binary64} {k : Nat} {c : Char} (h : c ∈ padDigits k (scaledDigits x k)) :
    c ∈ (grouped x k).toList := by
  simp only [grouped, String.toList_ofList, List.mem_append]
  generalize padDigits k (scaledDigits x k) = ds at h ⊢
  rw [← List.take_append_drop (ds.length - k) ds, List.mem_append] at h
  rcases h with h | h
  · exact .inl (.inr (mem_groupDigits h))
  · have hk : k ≠ 0 := by
      rintro rfl
      rw [Nat.sub_zero, List.drop_length] at h
      cases h
    rw [if_neg hk]
    exact .inr (List.mem_cons_of_mem _ h)

/-- Past the largest double the text is that of no number. -/
theorem not_written_grouped {x : Binary64} {k : Nat} (h : scaleByTen? x k = none) (m : Int) :
    ¬Written m k (grouped x k) := by
  intro hwritten
  have hletter : 'n' ∈ padDigits k (scaledDigits x k) := by
    unfold padDigits scaledDigits
    rw [h]
    exact List.mem_append_right _ (by decide)
  have hforeign := hwritten.mem_toList (mem_grouped hletter)
  revert hforeign
  decide

end Templating.Number
