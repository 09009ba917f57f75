import Mathlib
import Templating.Expr.Eval
import Templating.Proofs.Expr.Printing
import Templating.Proofs.Value.IntegerComparison

/-!
# Integers as keys

A list is looked into by index and a map by text, and each takes the other kind of key as well. An
integer and its digits find the same item of every list (`keyIndex?_intText`). In a map an integer is
held to 64 bits with sign first, so there the law is that of the integers of 64 bits with sign
(`keyText?_int`): one beyond them names the entry of the largest of them
(`Value.lookup?_integer_text`).
-/

namespace Templating

open Number (FitsWord intText isInt64 maxInt64)

namespace Value

theorem readIndex?_toDigits {n : Nat} (h : (n : Int) ≤ Number.maxUInt64) :
    readIndex? (String.ofList (Nat.toDigits 10 n)) = some n := by
  have hdigit : ∀ c ∈ Nat.toDigits 10 n, c.isDigit = true :=
    fun c hc => Nat.isDigit_of_mem_toDigits (by decide) (by decide) hc
  have hsign : readIndex? (String.ofList (Nat.toDigits 10 n)) =
      (Number.readDigits? (Nat.toDigits 10 n)).filter fun m : Nat => (m : Int) ≤ Number.maxUInt64 := by
    unfold readIndex?
    rw [String.toList_ofList]
    split
    · rename_i cs hcs
      cases hdigit '+' (by simp [hcs])
    · rfl
  rw [hsign, Number.readDigits?_toDigits, Option.filter_some, if_pos (decide_eq_true h)]

theorem readIndex?_minus (cs : List Char) : readIndex? (String.ofList ('-' :: cs)) = none := by
  simp [readIndex?, Number.readDigits?]

theorem keyIndex?_intText {n : Int} (h : FitsWord n) :
    keyIndex? (.text (intText n)) = keyIndex? (.int n) := by
  have htext : intText n = String.ofList (intText n).toList := String.ofList_toList.symm
  rw [keyIndex?, htext, Number.toList_intText, int, keyIndex?]
  by_cases hneg : n < 0
  · rw [if_pos hneg, readIndex?_minus, if_neg (not_le.2 hneg)]
  · have hnat : (n.natAbs : Int) ≤ Number.maxUInt64 := by
      have := h.2
      omega
    rw [if_neg hneg, readIndex?_toDigits hnat, if_pos (not_lt.1 hneg)]
    congr 1
    omega

theorem keyText?_int {n : Int} (h : isInt64 n = true) : keyText? (.int n) = some (intText n) := by
  have hclamp : clampInt64 n = n := by
    rw [isInt64, Bool.and_eq_true, decide_eq_true_eq, decide_eq_true_eq] at h
    rw [clampInt64, min_eq_right h.2, max_eq_right h.1]
  rw [int, keyText?, hclamp]

theorem keyText?_int_of_lt {n : Int} (h : maxInt64 < n) :
    keyText? (.int n) = some (intText maxInt64) := by
  rw [int, keyText?, clampInt64, min_eq_left h.le]
  rfl

theorem lookup?_list_intText (items : List Value) {n : Int} (h : FitsWord n) :
    lookup? (.list items) (.int n) = lookup? (.list items) (.text (intText n)) := by
  rw [lookup?, lookup?, keyIndex?_intText h]

theorem lookup?_map_intText (entries : Entries Value) {n : Int} (h : isInt64 n = true) :
    lookup? (.map entries) (.int n) = lookup? (.map entries) (.text (intText n)) := by
  rw [lookup?, lookup?, keyText?_int h]
  rfl

theorem lookup?_map_intText_of_lt (entries : Entries Value) {n : Int} (h : maxInt64 < n) :
    lookup? (.map entries) (.int n) = Entries.find? (intText maxInt64) entries := by
  rw [lookup?, keyText?_int_of_lt h]
  rfl

/-- Looking into the value by an integer does not miss the entry that its digits name. A map has to
have the same, or nothing, under the digits of the integer that it is held to. -/
def KeepsKey (v : Value) (n : Int) : Prop :=
  n ≤ maxInt64 ∨ ∀ entries, v = .map entries →
    Entries.find? (intText maxInt64) entries = Entries.find? (intText n) entries

theorem lookup?_intText_iff (v : Value) {n : Int} (hn : FitsWord n) :
    v.lookup? (.int n) = v.lookup? (.text (intText n)) ↔ v.KeepsKey n := by
  cases v with
  | list items => exact iff_of_true (lookup?_list_intText items hn) (.inr fun entries => nofun)
  | map entries =>
    by_cases hle : n ≤ maxInt64
    · have hint : isInt64 n = true := by
        rw [isInt64, decide_eq_true hn.1, decide_eq_true hle]
        rfl
      exact iff_of_true (lookup?_map_intText entries hint) (.inl hle)
    · rw [lookup?_map_intText_of_lt entries (not_le.1 hle), KeepsKey]
      simp only [hle, false_or, map.injEq, forall_eq']
      rfl
  | _ => exact iff_of_true rfl (.inr fun entries => nofun)

theorem lookupAll?_append (v : Value) (keys keys' : List Value) :
    v.lookupAll? (keys ++ keys') = (v.lookupAll? keys).bind (lookupAll? · keys') := by
  induction keys generalizing v with
  | nil => rfl
  | cons key keys ih =>
    rw [List.cons_append, lookupAll?, lookupAll?, Option.bind_assoc]
    exact congrArg (Option.bind _) (funext ih)

theorem resolve_append_cons (ctx : Context) (name : String) (before after : List Value)
    (key : Value) :
    ctx.resolve name (before ++ key :: after) =
      ((((ctx.find? (Context.plainName name)).bind (lookupAll? · before)).bind (·.lookup? key)).bind
        (lookupAll? · after)).getD .null := by
  simp only [Context.resolve, lookupAll?_append, lookupAll?, Option.bind_assoc]

/-- An integer of 64 bits and its digits are one key, in lists always and in maps up to the largest
integer with sign: an integer past that names the entry of the largest one in a map, so there they are
one key when the map has the same under both names. Where they are one key, a chain of keys leads to
the same value with either, and asking for either has the same answer. -/
theorem lookup?_integer_text (v : Value) {n : Int} (hn : FitsWord n) :
    (v.lookup? (.int n) = v.lookup? (.text (intText n)) ↔ v.KeepsKey n) ∧
      (v.KeepsKey n → ∀ ev : Evaluator,
        ev.apply "array_key_exists" [.int n, v] =
          ev.apply "array_key_exists" [.text (intText n), v]) ∧
      ∀ (ctx : Context) (name : String) (before after : List Value),
        (∀ w, (ctx.find? (Context.plainName name)).bind (lookupAll? · before) = some w →
          w.KeepsKey n) →
        ctx.resolve name (before ++ .int n :: after) =
          ctx.resolve name (before ++ .text (intText n) :: after) := by
  refine ⟨lookup?_intText_iff v hn, fun hkey ev => ?_, fun ctx name before after hkey => ?_⟩
  · have hfound := (lookup?_intText_iff v hn).2 hkey
    exact congrArg (fun found => bool (Option.isSome found)) hfound
  · rw [resolve_append_cons, resolve_append_cons]
    cases hreached : (ctx.find? (Context.plainName name)).bind (lookupAll? · before) with
    | none => rfl
    | some w =>
      rw [Option.bind_some, Option.bind_some, (lookup?_intText_iff w hn).2 (hkey w hreached)]

/-- A map in a list in a map, by keys at the ends of the range. -/
theorem lookup?_integer_text_nested :
    let rows : Value := .list [.null, .map [("-9223372036854775808", .text "low")]]
    let ctx : Context := ⟨[("data", .map [("7", rows), ("9223372036854775807", .text "high")])]⟩
    ctx.resolve "data" [.text "7", .int 1, .int Number.minInt64] =
        ctx.resolve "data" [.text "7", .int 1, .text "-9223372036854775808"] ∧
      (ctx.resolve "data" [.text "7", .int 1, .text "-9223372036854775808"]).toOutput = "low" ∧
      FitsWord Number.maxUInt64 ∧ rows.KeepsKey Number.maxUInt64 ∧
      rows.lookup? (.int Number.maxUInt64) = rows.lookup? (.text (intText Number.maxUInt64)) := by
  intro rows ctx
  have hlow : FitsWord Number.minInt64 := by decide
  have hhigh : FitsWord Number.maxUInt64 := by decide
  have hrows : rows.KeepsKey Number.maxUInt64 := .inr fun entries => nofun
  obtain ⟨-, -, hresolve⟩ := lookup?_integer_text rows hlow
  obtain ⟨hlookup, -, -⟩ := lookup?_integer_text rows hhigh
  refine ⟨hresolve ctx "data" [.text "7", .int 1] [] fun w _ => .inl (by decide), ?_, hhigh, hrows,
    hlookup.2 hrows⟩
  decide +kernel

/-- The largest integer without sign does not name its own entry. -/
theorem not_lookup?_integer_text :
    ¬∀ (v : Value) (n : Int), FitsWord n → v.lookup? (.int n) = v.lookup? (.text (intText n)) := by
  intro h
  have heq := h (.map [("18446744073709551615", .null)]) Number.maxUInt64 (by decide)
  have hfound := congrArg Option.isSome heq
  revert hfound
  decide +kernel

end Value

end Templating
