import Mathlib
import Templating.Value.Compare

/-!
# Strictly equal values are one value to every comparison

Strict equality is equality but for the two zeros among the doubles. It is an equivalence, and what
it relates no comparison, no condition and no output tells apart (`Value.strictEq_indiscernible`).

A comparison looks at the number that a value stands for, at its truth, at its text, and into lists
and maps. `Value.Step R` says that two values agree in all of that, where what they hold is related by
`R`. When every two values related by `R` are so, no loose comparison sees a difference between them
(`Value.looseEq_congr`): the induction is on the third value, against which they are compared.
-/

namespace Templating

/-! ## Numbers -/

namespace Number

namespace Binary64

def unsigned (x : Binary64) : Binary64 :=
  if x.units = 0 then zero else x

theorem toUnits_of_units_eq_zero {x : Binary64} (h : x.units = 0) : x.toUnits = 0 := by
  simp [toUnits, h]

theorem toUnits_unsigned (x : Binary64) : x.unsigned.toUnits = x.toUnits := by
  unfold unsigned
  split
  · rename_i h
    rw [toUnits_of_units_eq_zero h]
    rfl
  · rfl

theorem toUnits_eq_iff {x y : Binary64} : x.toUnits = y.toUnits ↔ x.unsigned = y.unsigned := by
  constructor
  · intro h
    by_cases hx : x.units = 0
    · have hy : y.units = 0 := by
        rw [toUnits_of_units_eq_zero hx, toUnits] at h
        split at h <;> omega
      rw [unsigned, unsigned, if_pos hx, if_pos hy]
    · have hsame : x = y := by
        unfold toUnits at h
        by_cases hxn : x.negative = true <;> by_cases hyn : y.negative = true <;>
          simp only [hxn, hyn, if_true, if_false, Bool.false_eq_true] at h
        · exact ext_units (hxn.trans hyn.symm) (by omega)
        · omega
        · omega
        · exact ext_units (by simp_all) (by omega)
      rw [hsame]
  · intro h
    rw [← toUnits_unsigned, h, toUnits_unsigned]

end Binary64

def unsigned : Number → Number
  | .int n => .int n
  | .float x => .float x.unsigned

/-- Strict equality of numbers is equality but for the sign of zero. -/
theorem strictEq_iff {m n : Number} : m.strictEq n = true ↔ m.unsigned = n.unsigned := by
  cases m <;> cases n <;>
    simp [strictEq, unsigned, Binary64.sameValue, Binary64.toUnits_eq_iff]

theorem toOutput_unsigned (n : Number) : n.unsigned.toOutput = n.toOutput := by
  cases n with
  | int n => rfl
  | float x =>
    by_cases h : x.units = 0
    · have hzero : x.unsigned.units = 0 := by
        rw [Binary64.unsigned, if_pos h]
        rfl
      simp only [unsigned, toOutput, floatOutput, if_pos hzero, if_pos h]
    · exact congrArg floatOutput (if_neg h)

theorem toUnits_toBinary64?_unsigned (n : Number) :
    n.unsigned.toBinary64?.map Binary64.toUnits = n.toBinary64?.map Binary64.toUnits := by
  cases n with
  | int n => rfl
  | float x => exact congrArg some x.toUnits_unsigned

end Number

namespace Value

/-- What holds of a list or a map when it holds of all that is in it, holds of every value. -/
@[elab_as_elim]
theorem induction_mem {P : Value → Prop} (null : P .null) (bool : ∀ b, P (.bool b))
    (number : ∀ n, P (.number n)) (text : ∀ s, P (.text s))
    (list : ∀ items : List Value, (∀ v ∈ items, P v) → P (.list items))
    (map : ∀ entries : Entries Value, (∀ e ∈ entries, P e.2) → P (.map entries)) :
    ∀ v, P v
  | .null => null
  | .bool b => bool b
  | .number n => number n
  | .text s => text s
  | .list items => list items fun v _ => induction_mem null bool number text list map v
  | .map entries => map entries fun e _ => induction_mem null bool number text list map e.2
termination_by v => sizeOf v
decreasing_by
  · have hlt := List.sizeOf_lt_of_mem ‹v ∈ items›
    simp only [Value.list.sizeOf_spec]
    omega
  · have hlt := List.sizeOf_lt_of_mem ‹e ∈ entries›
    obtain ⟨name, x⟩ := e
    simp only [Value.map.sizeOf_spec, Prod.mk.sizeOf_spec] at hlt ⊢
    omega

/-! ## What a comparison sees -/

/-- The number that a value stands for, in units of the smallest double. -/
def numeral? (v : Value) : Option Int :=
  v.toNumber?.map Number.Binary64.toUnits

/-- Two values stand for one number or for none, and have one truth and one text. -/
structure Alike (a b : Value) : Prop where
  numeral?_eq : a.numeral? = b.numeral?
  isTruthy_eq : a.isTruthy = b.isTruthy
  toOutput_eq : a.toOutput = b.toOutput

/-- Every entry of the one map has a partner of its name in the other, and so has the entry that is
found under a name. -/
structure Within (R : Value → Value → Prop) (es fs : Entries Value) : Prop where
  mem : ∀ e ∈ es, ∃ y, (e.1, y) ∈ fs ∧ R e.2 y
  find? : ∀ name x, Entries.find? name es = some x → ∃ y, Entries.find? name fs = some y ∧ R x y

theorem Within.imp {R S : Value → Value → Prop} {es fs : Entries Value} (h : Within R es fs)
    (hRS : ∀ x y, R x y → S x y) : Within S es fs where
  mem e he := (h.mem e he).imp fun _ hy => ⟨hy.1, hRS _ _ hy.2⟩
  find? name x hx := (h.find? name x hx).imp fun _ hy => ⟨hy.1, hRS _ _ hy.2⟩

/-- Two values of one kind that agree as far as `R` relates what they hold: lists item by item, and
maps name by name. -/
inductive Step (R : Value → Value → Prop) : Value → Value → Prop where
  | null : Step R .null .null
  | bool (b : Bool) : Step R (.bool b) (.bool b)
  | number {m n : Number} (h : m.strictEq n = true) : Step R (.number m) (.number n)
  | text (s : String) : Step R (.text s) (.text s)
  | list {xs ys : List Value} (h : List.Forall₂ R xs ys) : Step R (.list xs) (.list ys)
  | map {es fs : Entries Value} (hlength : es.length = fs.length) (h : Within R es fs)
      (h' : Within (fun y x => R x y) fs es) : Step R (.map es) (.map fs)

theorem alike_number {m n : Number} (h : m.strictEq n = true) :
    Alike (.number m) (.number n) := by
  have hsame {α : Type} {f : Number → α} (hf : ∀ n : Number, f n.unsigned = f n) : f m = f n := by
    rw [← hf, Number.strictEq_iff.1 h, hf]
  have htruth (n : Number) : isTruthy (.number n.unsigned) = isTruthy (.number n) := by
    cases n <;> rfl
  have hunits : (m.toBinary64?.map Number.Binary64.toUnits) = _ :=
    hsame (f := fun n => n.toBinary64?.map Number.Binary64.toUnits)
      Number.toUnits_toBinary64?_unsigned
  exact ⟨hunits, hsame (f := fun n => isTruthy (.number n)) htruth, hsame Number.toOutput_unsigned⟩

theorem Step.alike {R : Value → Value → Prop} {a b : Value} (h : Step R a b) : Alike a b := by
  have hisEmpty {α : Type} {xs ys : List α} (h : xs.length = ys.length) :
      xs.isEmpty = ys.isEmpty := by
    rw [Bool.eq_iff_iff, List.isEmpty_iff_length_eq_zero, List.isEmpty_iff_length_eq_zero, h]
  cases h with
  | number h => exact alike_number h
  | list h => exact ⟨rfl, congrArg (!·) (hisEmpty h.length_eq), rfl⟩
  | map hlength => exact ⟨rfl, congrArg (!·) (hisEmpty hlength), rfl⟩
  | _ => exact ⟨rfl, rfl, rfl⟩

/-! ## Loose equality, by what it sees -/

theorem looseEqItems_iff {xs ys : List Value} :
    looseEqItems xs ys = true ↔ List.Forall₂ (fun x y => x.looseEq y = true) xs ys := by
  induction xs generalizing ys with
  | nil => cases ys <;> simp [looseEqItems]
  | cons x xs ih => cases ys <;> simp [looseEqItems, ih]

theorem looseEqEntries_iff {es fs : Entries Value} :
    looseEqEntries es fs = true ↔
      ∀ e ∈ es, ∃ y, Entries.find? e.1 fs = some y ∧ e.2.looseEq y = true := by
  induction es with
  | nil => simp [looseEqEntries]
  | cons e es ih =>
    obtain ⟨name, x⟩ := e
    rw [looseEqEntries, Bool.and_eq_true, ih, List.forall_mem_cons]
    cases Entries.find? name fs <;> simp

theorem looseEq_of_numeral? {a b : Value} {m n : Int} (ha : a.numeral? = some m)
    (hb : b.numeral? = some n) : a.looseEq b = (m == n) := by
  obtain ⟨x, hx, rfl⟩ := Option.map_eq_some_iff.1 ha
  obtain ⟨y, hy, rfl⟩ := Option.map_eq_some_iff.1 hb
  rw [looseEq.eq_def, hx, hy]
  rfl

theorem looseEq_list (xs ys : List Value) :
    looseEq (.list xs) (.list ys) = looseEqItems xs ys := by
  rw [looseEq.eq_def]
  rfl

theorem looseEq_map (es fs : Entries Value) :
    looseEq (.map es) (.map fs) = (es.length == fs.length && looseEqEntries es fs) := by
  rw [looseEq.eq_def]
  rfl

def Nested : Value → Value → Prop
  | .list _, .list _ => True
  | .map _, .map _ => True
  | _, _ => False

theorem looseEq_eq_plain {a b : Value} (hnumeral : a.numeral? = none ∨ b.numeral? = none)
    (hnested : ¬Nested a b) : a.looseEq b = looseEqPlain a b := by
  have hnone : a.toNumber? = none ∨ b.toNumber? = none := by
    simpa [numeral?] using hnumeral
  rw [looseEq.eq_def]
  split
  · rename_i hx hy
    simp [hx, hy] at hnone
  · split
    · exact absurd trivial hnested
    · exact absurd trivial hnested
    · rfl

/-! ## No comparison tells apart what agrees -/

section Congruence

variable {R : Value → Value → Prop} {a b : Value}

theorem looseEqPlain_congr (h : Step R a b) (c : Value) :
    looseEqPlain a c = looseEqPlain b c ∧ looseEqPlain c a = looseEqPlain c b := by
  have htruth := h.alike.isTruthy_eq
  have htext := h.alike.toOutput_eq
  cases h with
  | null | bool | text => exact ⟨rfl, rfl⟩
  | number h => cases c <;> simp [looseEqPlain, htruth, htext]
  | list h => cases c <;> simp [looseEqPlain, htruth]
  | map => cases c <;> simp [looseEqPlain, htruth]

theorem nested_comm (a b : Value) : Nested a b ↔ Nested b a := by
  cases a <;> cases b <;> exact Iff.rfl

theorem Step.nested_iff (h : Step R a b) (c : Value) : Nested a c ↔ Nested b c := by
  cases h <;> cases c <;> exact Iff.rfl

/-- Unless what they hold is compared, two values that agree are compared alike with a third. -/
theorem Step.looseEq_congr (h : Step R a b) {c : Value} (hc : ¬Nested a c) :
    a.looseEq c = b.looseEq c ∧ c.looseEq a = c.looseEq b := by
  have hc' : ¬Nested b c := mt (h.nested_iff c).2 hc
  have hca : ¬Nested c a := mt (nested_comm c a).1 hc
  have hcb : ¬Nested c b := mt (nested_comm c b).1 hc'
  obtain ⟨hleft, hright⟩ := looseEqPlain_congr h c
  have hplain (hnone : a.numeral? = none ∨ c.numeral? = none) :
      a.looseEq c = b.looseEq c ∧ c.looseEq a = c.looseEq b := by
    have hnone' : b.numeral? = none ∨ c.numeral? = none := h.alike.numeral?_eq ▸ hnone
    rw [looseEq_eq_plain hnone hc, looseEq_eq_plain hnone' hc', looseEq_eq_plain hnone.symm hca,
      looseEq_eq_plain hnone'.symm hcb]
    exact ⟨hleft, hright⟩
  cases ha : a.numeral? with
  | none => exact hplain (.inl ha)
  | some m =>
    cases hc : c.numeral? with
    | none => exact hplain (.inr hc)
    | some n =>
      have hb : b.numeral? = some m := h.alike.numeral?_eq ▸ ha
      rw [looseEq_of_numeral? ha hc, looseEq_of_numeral? hb hc, looseEq_of_numeral? hc ha,
        looseEq_of_numeral? hc hb]
      exact ⟨rfl, rfl⟩

/-- The values that `R` relates are loosely equal to `c` together, from either side. -/
def Blind (R : Value → Value → Prop) (c : Value) : Prop :=
  ∀ a b, R a b → a.looseEq c = b.looseEq c ∧ c.looseEq a = c.looseEq b

theorem looseEqItems_congr {xs ys cs : List Value} (h : List.Forall₂ R xs ys)
    (hcs : ∀ c ∈ cs, Blind R c) :
    looseEqItems xs cs = looseEqItems ys cs ∧ looseEqItems cs xs = looseEqItems cs ys := by
  induction h generalizing cs with
  | nil => exact ⟨rfl, rfl⟩
  | cons hxy _ ih =>
    cases cs with
    | nil => exact ⟨rfl, rfl⟩
    | cons c cs =>
      obtain ⟨hc, hall⟩ := List.forall_mem_cons.1 hcs
      obtain ⟨hleft, hright⟩ := hc _ _ hxy
      obtain ⟨hlefts, hrights⟩ := ih hall
      simp only [looseEqItems, hleft, hright, hlefts, hrights, and_self]

theorem looseEqEntries_of_within {es fs gs : Entries Value} (h : Within R es fs)
    (h' : Within (fun y x => R x y) fs es) (hgs : ∀ g ∈ gs, Blind R g.2) :
    (looseEqEntries es gs = true → looseEqEntries fs gs = true) ∧
      (looseEqEntries gs es = true → looseEqEntries gs fs = true) := by
  simp only [looseEqEntries_iff]
  refine ⟨fun heq f hf => ?_, fun heq g hg => ?_⟩
  · obtain ⟨x, hx, hxf⟩ := h'.mem f hf
    obtain ⟨z, hz, hxz⟩ := heq _ hx
    exact ⟨z, hz, (hgs _ (Entries.mem_of_find? hz) _ _ hxf).1 ▸ hxz⟩
  · obtain ⟨x, hx, hgx⟩ := heq g hg
    obtain ⟨y, hy, hxy⟩ := h.find? _ _ hx
    exact ⟨y, hy, (hgs g hg _ _ hxy).2 ▸ hgx⟩

theorem looseEqEntries_congr {es fs gs : Entries Value} (h : Within R es fs)
    (h' : Within (fun y x => R x y) fs es) (hgs : ∀ g ∈ gs, Blind R g.2) :
    looseEqEntries es gs = looseEqEntries fs gs ∧ looseEqEntries gs es = looseEqEntries gs fs := by
  have hback : ∀ g ∈ gs, Blind (fun y x => R x y) g.2 := fun g hg y x hxy =>
    ⟨(hgs g hg x y hxy).1.symm, (hgs g hg x y hxy).2.symm⟩
  obtain ⟨hleft, hright⟩ := looseEqEntries_of_within h h' hgs
  obtain ⟨hleft', hright'⟩ := looseEqEntries_of_within h' h hback
  exact ⟨Bool.eq_iff_iff.2 ⟨hleft, hleft'⟩, Bool.eq_iff_iff.2 ⟨hright, hright'⟩⟩

/-- When all values related by `R` agree as far as `R` relates what they hold, loose equality cannot
tell them apart. -/
theorem looseEq_congr (hR : ∀ a b, R a b → Step R a b) (c : Value) : Blind R c := by
  induction c using induction_mem with
  | list cs ih =>
    intro a b hab
    cases hR a b hab with
    | list h => simpa only [looseEq_list] using looseEqItems_congr h ih
    | _ => exact (hR _ _ hab).looseEq_congr id
  | map gs ih =>
    intro a b hab
    cases hR a b hab with
    | map hlength h h' =>
      obtain ⟨hleft, hright⟩ := looseEqEntries_congr h h' ih
      simp only [looseEq_map, hlength, hleft, hright, and_self]
    | _ => exact (hR _ _ hab).looseEq_congr id
  | _ => exact fun a b hab => (hR a b hab).looseEq_congr (by cases a <;> exact id)

theorem order_eq (a b : Value) :
    a.order b =
      match a.numeral?, b.numeral? with
      | some m, some n => compare m n
      | _, _ => compareChars a.toOutput.toList b.toOutput.toList := by
  unfold order numeral?
  cases a.toNumber? <;> cases b.toNumber? <;> rfl

theorem Alike.order_congr (h : Alike a b) (c : Value) :
    a.order c = b.order c ∧ c.order a = c.order b := by
  simp only [order_eq, h.numeral?_eq, h.toOutput_eq, and_self]

end Congruence

/-! ## Strict equality -/

mutual

/-- The value with every negative zero in it replaced by the positive one. -/
def unsigned : Value → Value
  | .null => .null
  | .bool b => .bool b
  | .number n => .number n.unsigned
  | .text s => .text s
  | .list items => .list (unsignedItems items)
  | .map entries => .map (unsignedEntries entries)

def unsignedItems : List Value → List Value
  | [] => []
  | v :: items => unsigned v :: unsignedItems items

def unsignedEntries : List (String × Value) → List (String × Value)
  | [] => []
  | (name, v) :: entries => (name, unsigned v) :: unsignedEntries entries

end

mutual

theorem strictEq_iff (a b : Value) : a.strictEq b = true ↔ a.unsigned = b.unsigned := by
  cases a with
  | list xs => cases b <;> simp [strictEq, unsigned, strictEqItems_iff xs]
  | map es => cases b <;> simp [strictEq, unsigned, strictEqEntries_iff es]
  | _ => cases b <;> simp [strictEq, unsigned, Number.strictEq_iff]

theorem strictEqItems_iff (xs ys : List Value) :
    strictEqItems xs ys = true ↔ unsignedItems xs = unsignedItems ys := by
  cases xs with
  | nil => cases ys <;> simp [strictEqItems, unsignedItems]
  | cons x xs =>
    cases ys <;> simp [strictEqItems, unsignedItems, strictEq_iff x, strictEqItems_iff xs]

theorem strictEqEntries_iff (es fs : List (String × Value)) :
    strictEqEntries es fs = true ↔ unsignedEntries es = unsignedEntries fs := by
  cases es with
  | nil => cases fs <;> simp [strictEqEntries, unsignedEntries]
  | cons e es =>
    cases fs <;> simp [strictEqEntries, unsignedEntries, strictEq_iff e.2, strictEqEntries_iff es]

end

theorem forall₂_of_unsignedItems_eq {xs ys : List Value} (h : unsignedItems xs = unsignedItems ys) :
    List.Forall₂ (fun x y => x.strictEq y = true) xs ys := by
  induction xs generalizing ys with
  | nil =>
    cases ys with
    | nil => exact .nil
    | cons y ys => cases h
  | cons x xs ih =>
    cases ys with
    | nil => cases h
    | cons y ys =>
      obtain ⟨hfirst, hrest⟩ := List.cons.inj h
      exact .cons ((strictEq_iff x y).2 hfirst) (ih hrest)

theorem strictEq_equivalence : Equivalence fun a b : Value => a.strictEq b = true := by
  simp only [strictEq_iff]
  exact ⟨fun _ => rfl, Eq.symm, Eq.trans⟩

theorem within_of_unsignedEntries_eq {es fs : Entries Value}
    (h : unsignedEntries es = unsignedEntries fs) :
    es.length = fs.length ∧ Within (fun a b => a.strictEq b = true) es fs := by
  induction es generalizing fs with
  | nil =>
    cases fs with
    | nil => exact ⟨rfl, List.forall_mem_nil _, fun _ _ hx => nomatch hx⟩
    | cons f fs => cases h
  | cons e es ih =>
    cases fs with
    | nil => cases h
    | cons f fs =>
      obtain ⟨name, x⟩ := e
      obtain ⟨name', y⟩ := f
      simp only [unsignedEntries, List.cons.injEq, Prod.mk.injEq] at h
      obtain ⟨⟨rfl, hxy⟩, hrest⟩ := h
      have hfirst : x.strictEq y = true := (strictEq_iff x y).2 hxy
      obtain ⟨hlength, hmem, hfind⟩ := ih hrest
      refine ⟨congrArg Nat.succ hlength, ?_, ?_⟩
      · refine List.forall_mem_cons.2 ⟨⟨y, List.mem_cons_self, hfirst⟩, fun e he => ?_⟩
        obtain ⟨z, hz, hez⟩ := hmem e he
        exact ⟨z, List.mem_cons_of_mem _ hz, hez⟩
      · intro wanted z hz
        rw [Entries.find?_cons] at hz ⊢
        split at hz
        · cases hz
          exact ⟨y, if_pos ‹_›, hfirst⟩
        · rw [if_neg ‹_›]
          exact hfind _ _ hz

theorem step_of_strictEq {a b : Value} (h : a.strictEq b = true) :
    Step (fun a b => a.strictEq b = true) a b := by
  have heq := (strictEq_iff a b).1 h
  cases a with
  | null | bool | text =>
    cases b <;> cases heq
    constructor
  | number m =>
    cases b with
    | number n => exact .number h
    | _ => cases heq
  | list xs =>
    cases b with
    | list ys => exact .list (forall₂_of_unsignedItems_eq (list.inj heq))
    | _ => cases heq
  | map es =>
    cases b with
    | map fs =>
      have hentries := map.inj heq
      obtain ⟨hlength, hwithin⟩ := within_of_unsignedEntries_eq hentries
      obtain ⟨-, hback⟩ := within_of_unsignedEntries_eq hentries.symm
      exact .map hlength hwithin (hback.imp fun _ _ => strictEq_equivalence.symm)
    | _ => cases heq

/-- Strict equality is an equivalence, and values that are strictly equal cannot be told apart: by no
operator, compared with any third value from either side, by no condition, and by no output. -/
theorem strictEq_indiscernible :
    Equivalence (fun a b : Value => a.strictEq b = true) ∧
      ∀ a b : Value, a.strictEq b = true →
        (∀ (op : Comparison) (c : Value), op.holds a c = op.holds b c ∧ op.holds c a = op.holds c b) ∧
          a.isTruthy = b.isTruthy ∧ a.toOutput = b.toOutput := by
  refine ⟨strictEq_equivalence, fun a b h => ?_⟩
  have hstep := step_of_strictEq h
  refine ⟨fun op c => ?_, hstep.alike.isTruthy_eq, hstep.alike.toOutput_eq⟩
  have hstrict : a.strictEq c = b.strictEq c ∧ c.strictEq a = c.strictEq b := by
    have hback := strictEq_equivalence.symm h
    constructor <;> rw [Bool.eq_iff_iff]
    · exact ⟨strictEq_equivalence.trans hback, strictEq_equivalence.trans h⟩
    · exact ⟨(strictEq_equivalence.trans · h), (strictEq_equivalence.trans · hback)⟩
  have hloose := looseEq_congr (fun _ _ => step_of_strictEq) c a b h
  have horder := hstep.alike.order_congr c
  cases op <;> simp only [Comparison.holds, hstrict, hloose, horder, and_self]

def negativeZero : Value :=
  .number (.float ⟨true, 0, Number.representable_zero⟩)

/-- The two zeros in a list in a map, compared with a map of another order. -/
theorem strictEq_indiscernible_zeros :
    let a : Value := .map [("n", .list [.number (.float .zero)]), ("m", .null)]
    let b : Value := .map [("n", .list [negativeZero]), ("m", .null)]
    let c : Value := .map [("m", .text ""), ("n", .list [.text " 0.0"])]
    a ≠ b ∧ a.strictEq b = true ∧
      (∀ op : Comparison, op.holds a c = op.holds b c ∧ op.holds c a = op.holds c b) ∧
      b.looseEq c = true := by
  intro a b c
  have h : a.strictEq b = true := by decide
  have hsame := strictEq_indiscernible.2 a b h
  refine ⟨by simp [a, b, negativeZero, Number.Binary64.zero], h, fun op => hsame.1 op c, ?_⟩
  cbv

end Value

end Templating
