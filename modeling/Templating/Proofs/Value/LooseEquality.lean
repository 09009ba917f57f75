import Mathlib
import Templating.Proofs.Value.StrictEquality

/-!
# Loose equality

On values in which no map has a name twice, as in those that documents hold
(`Value.uniqueNames_of_ofJson?`), loose equality is reflexive and symmetric, holds of what is strictly
equal, and does not see in which order the entries of a map come (`Value.looseEq_laws`).

It compares maps of one length by looking up the names of the one in the other. That this is symmetric
is a matter of counting: as many names of which each is in the other map are all of its names.
-/

namespace Templating

namespace Value

/-- No map has a name twice, at any depth. -/
inductive UniqueNames : Value → Prop where
  | null : UniqueNames .null
  | bool (b : Bool) : UniqueNames (.bool b)
  | number (n : Number) : UniqueNames (.number n)
  | text (s : String) : UniqueNames (.text s)
  | list {items : List Value} (h : ∀ v ∈ items, UniqueNames v) : UniqueNames (.list items)
  | map {entries : Entries Value} (hnames : (Entries.names entries).Nodup)
      (h : ∀ e ∈ entries, UniqueNames e.2) : UniqueNames (.map entries)

/-- The values differ in nothing but the order of the entries of maps, at any depth. -/
inductive Reordered : Value → Value → Prop where
  | refl (v : Value) : Reordered v v
  | list {xs ys : List Value} (h : List.Forall₂ Reordered xs ys) : Reordered (.list xs) (.list ys)
  | map {es fs gs : Entries Value} (hnames : Entries.names es = Entries.names fs)
      (h : List.Forall₂ Reordered (es.map Prod.snd) (fs.map Prod.snd)) (hperm : fs.Perm gs) :
      Reordered (.map es) (.map gs)

/-! ## Values of documents -/

mutual

/-- What a document holds has no name twice in a map, since of repeated names one entry is left. -/
theorem uniqueNames_of_ofJson? {j : Json} {v : Value} (h : ofJson? j = some v) : v.UniqueNames := by
  cases j with
  | null | bool | string =>
    cases h
    constructor
  | number literal =>
    obtain ⟨n, -, rfl⟩ := Option.map_eq_some_iff.1 h
    exact .number n
  | broken => cases h
  | array items =>
    obtain ⟨vs, hvs, rfl⟩ := Option.map_eq_some_iff.1 h
    exact .list (uniqueNames_of_ofJsonItems? hvs)
  | object members =>
    obtain ⟨es, hes, rfl⟩ := Option.map_eq_some_iff.1 h
    have hnil : (Entries.names ([] : Entries Value)).Nodup := List.nodup_nil
    obtain ⟨hnames, hall⟩ := uniqueNames_of_ofJsonMembers? hnil (List.forall_mem_nil _) hes
    exact .map hnames hall

theorem uniqueNames_of_ofJsonItems? {items : List Json} {vs : List Value}
    (h : ofJsonItems? items = some vs) : ∀ v ∈ vs, v.UniqueNames := by
  cases items with
  | nil =>
    cases h
    exact List.forall_mem_nil _
  | cons item items =>
    rw [ofJsonItems?] at h
    split at h
    · rename_i v vs hv hvs
      cases h
      exact List.forall_mem_cons.2 ⟨uniqueNames_of_ofJson? hv, uniqueNames_of_ofJsonItems? hvs⟩
    · cases h

theorem uniqueNames_of_ofJsonMembers? {entries es : Entries Value} {members : List (String × Json)}
    (hnames : (Entries.names entries).Nodup) (hall : ∀ e ∈ entries, e.2.UniqueNames)
    (h : ofJsonMembers? entries members = some es) :
    (Entries.names es).Nodup ∧ ∀ e ∈ es, e.2.UniqueNames := by
  cases members with
  | nil =>
    cases h
    exact ⟨hnames, hall⟩
  | cons member members =>
    rw [ofJsonMembers?] at h
    split at h
    · rename_i v hv
      refine uniqueNames_of_ofJsonMembers? (Entries.nodup_names_insert hnames _ v)
        (fun e he => ?_) h
      rcases Entries.eq_or_mem_of_mem_insert he with rfl | he
      · exact uniqueNames_of_ofJson? hv
      · exact hall e he
    · cases h

end

/-! ## Reflexivity and symmetry -/

theorem looseEqPlain_comm (a b : Value) : looseEqPlain a b = looseEqPlain b a := by
  cases a <;> cases b <;> simp [looseEqPlain, Bool.beq_comm, isTruthy]

theorem looseEqPlain_self {a : Value} (h : ¬Nested a a) : looseEqPlain a a = true := by
  cases a with
  | list | map => exact absurd trivial h
  | null => rfl
  | bool b => cases b <;> rfl
  | number n | text s => exact beq_self_eq_true _

theorem looseEq_self_of_not_nested {a : Value} (h : ¬Nested a a) : a.looseEq a = true := by
  cases ha : a.numeral? with
  | none => rw [looseEq_eq_plain (.inl ha) h, looseEqPlain_self h]
  | some n => rw [looseEq_of_numeral? ha ha, beq_self_eq_true]

theorem looseEq_comm_of_not_nested {a b : Value} (h : ¬Nested a b) : a.looseEq b = b.looseEq a := by
  have h' : ¬Nested b a := mt (nested_comm b a).1 h
  cases ha : a.numeral? with
  | none => rw [looseEq_eq_plain (.inl ha) h, looseEq_eq_plain (.inr ha) h', looseEqPlain_comm]
  | some m =>
    cases hb : b.numeral? with
    | none => rw [looseEq_eq_plain (.inr hb) h, looseEq_eq_plain (.inl hb) h', looseEqPlain_comm]
    | some n => rw [looseEq_of_numeral? ha hb, looseEq_of_numeral? hb ha, Bool.beq_comm]

theorem looseEqItems_self {items : List Value} (h : ∀ v ∈ items, v.looseEq v = true) :
    looseEqItems items items = true :=
  looseEqItems_iff.2 (List.forall₂_same.2 h)

theorem looseEqEntries_self {entries : Entries Value} (hnames : (Entries.names entries).Nodup)
    (h : ∀ e ∈ entries, e.2.looseEq e.2 = true) : looseEqEntries entries entries = true :=
  looseEqEntries_iff.2 fun e he => ⟨e.2, (Entries.mem_iff_find?_eq_some hnames).1 he, h e he⟩

theorem UniqueNames.looseEq_self {a : Value} (h : a.UniqueNames) : a.looseEq a = true := by
  induction h with
  | list _ ih => rw [looseEq_list, looseEqItems_self ih]
  | map hnames _ ih =>
    rw [looseEq_map, looseEqEntries_self hnames ih, beq_self_eq_true, Bool.and_self]
  | _ => exact looseEq_self_of_not_nested id

theorem looseEqItems_comm {xs ys : List Value}
    (h : ∀ x ∈ xs, ∀ y ∈ ys, x.looseEq y = y.looseEq x) :
    looseEqItems xs ys = looseEqItems ys xs := by
  induction xs generalizing ys with
  | nil => cases ys <;> rfl
  | cons x xs ih =>
    cases ys with
    | nil => rfl
    | cons y ys =>
      have hfirst := h x List.mem_cons_self y List.mem_cons_self
      have hrest := ih fun x hx y hy => h x (List.mem_cons_of_mem _ hx) y (List.mem_cons_of_mem _ hy)
      rw [looseEqItems, looseEqItems, hfirst, hrest]

theorem names_subset_of_length_eq {es fs : Entries Value} (hes : (Entries.names es).Nodup)
    (hlength : es.length = fs.length) (h : Entries.names es ⊆ Entries.names fs) :
    Entries.names fs ⊆ Entries.names es := by
  have hcount : (Entries.names fs).length ≤ (Entries.names es).length := by
    simp [Entries.names, hlength]
  exact ((hes.subperm h).perm_of_length_le hcount).symm.subset

theorem looseEqEntries_symm {es fs : Entries Value} (hes : (Entries.names es).Nodup)
    (hfs : (Entries.names fs).Nodup) (hlength : es.length = fs.length)
    (hcomm : ∀ e ∈ es, ∀ f ∈ fs, e.2.looseEq f.2 = f.2.looseEq e.2)
    (h : looseEqEntries es fs = true) : looseEqEntries fs es = true := by
  rw [looseEqEntries_iff] at h ⊢
  have hsubset : Entries.names es ⊆ Entries.names fs := by
    intro name hname
    obtain ⟨e, he, rfl⟩ := List.mem_map.1 hname
    obtain ⟨y, hy, -⟩ := h e he
    exact List.mem_map.2 ⟨_, Entries.mem_of_find? hy, rfl⟩
  intro f hf
  obtain ⟨e, he, hname⟩ :=
    List.mem_map.1 (names_subset_of_length_eq hes hlength hsubset (List.mem_map_of_mem hf))
  obtain ⟨y, hy, hey⟩ := h e he
  have hfound : Entries.find? e.1 fs = some f.2 :=
    (Entries.mem_iff_find?_eq_some hfs).1 (hname ▸ hf)
  obtain rfl : f.2 = y := Option.some.inj (hfound.symm.trans hy)
  exact ⟨e.2, hname ▸ (Entries.mem_iff_find?_eq_some hes).1 he, hcomm e he f hf ▸ hey⟩

theorem UniqueNames.looseEq_comm {a b : Value} (ha : a.UniqueNames) (hb : b.UniqueNames) :
    a.looseEq b = b.looseEq a := by
  induction ha generalizing b with
  | list _ ih =>
    cases hb with
    | list hys => rw [looseEq_list, looseEq_list, looseEqItems_comm fun x hx y hy => ih x hx (hys y hy)]
    | _ => exact looseEq_comm_of_not_nested id
  | @map es hes _ ih =>
    cases hb with
    | @map fs hfs hvalues =>
      rw [looseEq_map, looseEq_map, Bool.beq_comm]
      by_cases hlength : fs.length = es.length
      · have hcomm : ∀ e ∈ es, ∀ f ∈ fs, e.2.looseEq f.2 = f.2.looseEq e.2 :=
          fun e he f hf => ih e he (hvalues f hf)
        have hback : ∀ f ∈ fs, ∀ e ∈ es, f.2.looseEq e.2 = e.2.looseEq f.2 :=
          fun f hf e he => (hcomm e he f hf).symm
        rw [Bool.eq_iff_iff.2 ⟨looseEqEntries_symm hes hfs hlength.symm hcomm,
          looseEqEntries_symm hfs hes hlength hback⟩]
      · rw [beq_eq_false_iff_ne.2 hlength, Bool.false_and, Bool.false_and]
    | _ => exact looseEq_comm_of_not_nested id
  | _ => exact looseEq_comm_of_not_nested (by cases hb <;> exact id)

/-! ## The order of entries -/

/-- Of maps with the same names in the same order and related values, every entry of the one has a
partner in the other. -/
theorem exists_partner {R : Value → Value → Prop} {es fs : Entries Value}
    (hnames : Entries.names es = Entries.names fs)
    (h : List.Forall₂ R (es.map Prod.snd) (fs.map Prod.snd)) :
    ∀ e ∈ es, ∃ y, (e.1, y) ∈ fs ∧ R e.2 y := by
  induction es generalizing fs with
  | nil => exact List.forall_mem_nil _
  | cons e es ih =>
    cases fs with
    | nil => cases hnames
    | cons f fs =>
      obtain ⟨name, y⟩ := f
      obtain ⟨rfl, hrest⟩ := List.cons.inj hnames
      obtain ⟨hvalue, hvalues⟩ := List.forall₂_cons.1 h
      refine List.forall_mem_cons.2 ⟨⟨y, List.mem_cons_self, hvalue⟩, fun e he => ?_⟩
      obtain ⟨z, hz, hez⟩ := ih hrest hvalues e he
      exact ⟨z, List.mem_cons_of_mem _ hz, hez⟩

theorem within_of_mem {R : Value → Value → Prop} {es fs : Entries Value}
    (hfs : (Entries.names fs).Nodup) (h : ∀ e ∈ es, ∃ y, (e.1, y) ∈ fs ∧ R e.2 y) :
    Within R es fs where
  mem := h
  find? name x hx := by
    obtain ⟨y, hy, hxy⟩ := h _ (Entries.mem_of_find? hx)
    exact ⟨y, (Entries.mem_iff_find?_eq_some hfs).1 hy, hxy⟩

def ReorderedUnique (a b : Value) : Prop :=
  a.UniqueNames ∧ Reordered a b

theorem step_reordered_map {es fs gs : Entries Value} (hes : (Entries.names es).Nodup)
    (hvalues : ∀ e ∈ es, e.2.UniqueNames) (hnames : Entries.names es = Entries.names fs)
    (h : List.Forall₂ Reordered (es.map Prod.snd) (fs.map Prod.snd)) (hperm : fs.Perm gs) :
    Step ReorderedUnique (.map es) (.map gs) := by
  have hfs : (Entries.names fs).Nodup := by rwa [← hnames]
  have hgs : (Entries.names gs).Nodup := (hperm.map Prod.fst).nodup_iff.1 hfs
  have hall : List.Forall₂ ReorderedUnique (es.map Prod.snd) (fs.map Prod.snd) :=
    (List.forall₂_and_left _ _).2 ⟨List.forall_mem_map.2 hvalues, h⟩
  have hlength : es.length = gs.length := by
    simpa using h.length_eq.trans (hperm.map Prod.snd).length_eq
  refine .map hlength (within_of_mem hgs fun e he => ?_) (within_of_mem hes fun g hg => ?_)
  · obtain ⟨y, hy, hey⟩ := exists_partner hnames hall e he
    exact ⟨y, hperm.subset hy, hey⟩
  · exact exists_partner hnames.symm hall.flip g (hperm.symm.subset hg)

theorem ReorderedUnique.step {a b : Value} (h : ReorderedUnique a b) :
    Step ReorderedUnique a b := by
  obtain ⟨ha, hab⟩ := h
  cases hab with
  | list h =>
    cases ha with
    | list hxs => exact .list ((List.forall₂_and_left _ _).2 ⟨hxs, h⟩)
  | map hnames h hperm =>
    cases ha with
    | map hes hvalues => exact step_reordered_map hes hvalues hnames h hperm
  | refl =>
    cases ha with
    | null => exact .null
    | bool b => exact .bool b
    | number n => exact .number (Number.strictEq_iff.2 rfl)
    | text s => exact .text s
    | list hxs => exact .list (List.forall₂_same.2 fun v hv => ⟨hxs v hv, .refl v⟩)
    | map hes hvalues =>
      exact step_reordered_map hes hvalues rfl (List.forall₂_same.2 fun v _ => .refl v) (.refl _)

/-- On values in which no map has a name twice, loose equality is reflexive and symmetric, holds of
what is strictly equal, and does not see in which order the entries of a map come. -/
theorem looseEq_laws :
    (∀ a : Value, a.UniqueNames → a.looseEq a = true) ∧
      (∀ a b : Value, a.UniqueNames → b.UniqueNames → a.looseEq b = b.looseEq a) ∧
      (∀ a b : Value, a.UniqueNames → b.UniqueNames → a.strictEq b = true → a.looseEq b = true) ∧
      ∀ a b c : Value, a.UniqueNames → Reordered a b →
        a.looseEq c = b.looseEq c ∧ c.looseEq a = c.looseEq b := by
  refine ⟨fun a ha => ha.looseEq_self, fun a b ha hb => ha.looseEq_comm hb, fun a b _ hb h => ?_,
    fun a b c ha hab => looseEq_congr (fun _ _ => ReorderedUnique.step) c a b ⟨ha, hab⟩⟩
  rw [(looseEq_congr (fun _ _ => step_of_strictEq) b a b h).1, hb.looseEq_self]

/-- Two maps with the same entries in another order, which hold two more, and a third with other
values that is loosely equal to both. -/
theorem looseEq_laws_nested :
    let inner : Entries Value := [("a", .text "u"), ("b", .null)]
    let a : Value := .map [("x", .map inner), ("y", .text "t")]
    let b : Value := .map [("y", .text "t"), ("x", .map inner.reverse)]
    let c : Value := .map [("x", .map [("b", .bool false), ("a", .bool true)]), ("y", .text "t")]
    (a.UniqueNames ∧ b.UniqueNames ∧ c.UniqueNames) ∧ Reordered a b ∧ a.strictEq a = true ∧
      a.strictEq b = false ∧ b.looseEq c = true ∧
        a.looseEq a = true ∧ a.looseEq b = b.looseEq a ∧ c.looseEq a = c.looseEq b := by
  intro inner a b c
  have ha : a.UniqueNames := by
    refine uniqueNames_of_ofJson? (j := .object [("x", .object [("a", .string "u"), ("b", .null)]),
      ("y", .string "t")]) ?_
    cbv
  have hb : b.UniqueNames := by
    refine uniqueNames_of_ofJson? (j := .object [("y", .string "t"),
      ("x", .object [("b", .null), ("a", .string "u")])]) ?_
    cbv
  have hc : c.UniqueNames := by
    refine uniqueNames_of_ofJson? (j := .object [("x", .object [("b", .bool false),
      ("a", .bool true)]), ("y", .string "t")]) ?_
    cbv
  have hinner : Reordered (.map inner) (.map inner.reverse) :=
    .map rfl (List.forall₂_same.2 fun v _ => .refl v) inner.reverse_perm.symm
  have hab : Reordered a b := by
    let es : Entries Value := [("x", .map inner), ("y", .text "t")]
    let fs : Entries Value := [("x", .map inner.reverse), ("y", .text "t")]
    have hnames : Entries.names es = Entries.names fs := rfl
    have hvalues : List.Forall₂ Reordered (es.map Prod.snd) (fs.map Prod.snd) :=
      .cons hinner (.cons (.refl _) .nil)
    exact .map hnames hvalues fs.reverse_perm.symm
  have hstrict : a.strictEq a = true := strictEq_equivalence.refl a
  have hdiffer : a.strictEq b = false := by cbv
  have hequal : b.looseEq c = true := by cbv
  obtain ⟨hrefl, hsymm, -, horder⟩ := looseEq_laws
  exact ⟨⟨ha, hb, hc⟩, hab, hstrict, hdiffer, hequal, hrefl a ha, hsymm a b ha hb,
    (horder a b c ha hab).2⟩

end Value

end Templating
