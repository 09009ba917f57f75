import Mathlib
import Templating.Proofs.Render.Run
import Templating.Proofs.Value.LooseEquality

/-!
# What a loop visits

A loop goes through the entries that its source has when it begins: whatever a turn binds, what is
left to visit stays as it was. `Visits` is the account of the turns so far, each of them a render of
the body from the state that the one before it left, with the key and then the item bound there. A
loop ends when all entries are visited or with the error of a turn (`Renderer.loop_visits_entries`).
-/

namespace Templating

/-! ## The entries of a value -/

/-- At this place in its order the value has this item, by this key: the index in a list and the name
in a map. Other values have no entries. -/
inductive Value.EntryAt : Value → Nat → Value → Value → Prop where
  | list {items : List Value} {i : Nat} {x : Value} (h : items[i]? = some x) :
      EntryAt (.list items) i (.nat i) x
  | map {entries : Entries Value} {i : Nat} {name : String} {x : Value}
      (h : entries[i]? = some (name, x)) : EntryAt (.map entries) i (.text name) x

namespace Value

variable {v k x : Value} {i : Nat}

theorem nat_inj {m n : Nat} : nat m = nat n ↔ m = n := by
  simp [nat]

theorem length_loopEntries (v : Value) : v.loopEntries.length = v.count := by
  cases v <;> simp [loopEntries, count]

theorem loopEntries_getElem?_eq_some_iff :
    v.loopEntries[i]? = some (k, x) ↔ v.EntryAt i k x := by
  constructor
  · intro h
    cases v with
    | list items =>
      rw [loopEntries, List.getElem?_map, List.getElem?_zipIdx, Option.map_map] at h
      obtain ⟨x, hx, heq⟩ := Option.map_eq_some_iff.1 h
      simp only [Function.comp_apply, Nat.zero_add, Prod.mk.injEq] at heq
      obtain ⟨rfl, rfl⟩ := heq
      exact .list hx
    | map entries =>
      rw [loopEntries, List.getElem?_map] at h
      obtain ⟨⟨name, x⟩, hx, heq⟩ := Option.map_eq_some_iff.1 h
      cases heq
      exact .map hx
    | _ => cases h
  · rintro (hx | hx) <;> simp [loopEntries, hx]

theorem exists_entryAt (h : i < v.count) : ∃ k x, v.EntryAt i k x := by
  rw [← length_loopEntries] at h
  exact ⟨_, _, loopEntries_getElem?_eq_some_iff.1 (List.getElem?_eq_getElem h)⟩

theorem EntryAt.lookup?_eq (h : v.EntryAt i k x) (hv : v.UniqueNames) : v.lookup? k = some x := by
  cases h with
  | list hx =>
    rw [lookup?, nat, keyIndex?, if_pos (Int.natCast_nonneg i)]
    exact hx
  | map hx =>
    cases hv with
    | map hnames =>
      exact (Entries.mem_iff_find?_eq_some hnames).1 (List.mem_of_getElem? hx)

end Value

/-- In a turn the item has its name, also where the key was given the same. -/
theorem Context.find?_bindTurn (ctx : Context) (key : Option String) (item name : String)
    (k x : Value) :
    (ctx.bindTurn key item (k, x)).find? name =
      if name = item then some x else if key = some name then some k else ctx.find? name := by
  cases key with
  | none => simp [bindTurn, find?_bind]
  | some keyName => simp [bindTurn, find?_bind, eq_comm]

/-! ## Turns -/

def RenderState.inTurn (s : RenderState) (key : Option String) (item : String)
    (turn : Value × Value) : RenderState :=
  { s with context := s.context.bindTurn key item turn }

/-- The entries of `v` are visited from the first one on, one for each of the texts that `act` gave,
and the last turn left the state. -/
inductive Visits (v : Value) (key : Option String) (item : String) (act : Render String)
    (s : RenderState) : List String → RenderState → Prop where
  | start : Visits v key item act s [] s
  | turn {texts : List String} {mid t : RenderState} {k x : Value} {text : String}
      (h : Visits v key item act s texts mid) (hentry : v.EntryAt texts.length k x)
      (hact : act (mid.inTurn key item (k, x)) = (.ok text, t)) :
      Visits v key item act s (texts ++ [text]) t

def Renderer.turns (key : Option String) (item : String) (act : Render String)
    (todo : List (Value × Value)) (out : String) : Render String :=
  todo.foldlM (fun out turn => do
    bindTurn key item turn
    return out ++ (← act)) out

section Turns

open Renderer (turns)

variable {v : Value} {key : Option String} {item : String} {act : Render String}
  {s mid t : RenderState} {turn : Value × Value} {todo : List (Value × Value)} {out text : String}
  {texts : List String} {e : RenderError}

theorem Renderer.turns_cons (key : Option String) (item : String) (act : Render String)
    (turn : Value × Value) (todo : List (Value × Value)) (out : String) (s : RenderState) :
    turns key item act (turn :: todo) out s = match act (s.inTurn key item turn) with
      | (.ok text, t) => turns key item act todo (out ++ text) t
      | (.error e, t) => (.error e, t) := by
  rw [turns, List.foldlM_cons]
  simp only [bind_assoc, pure_bind]
  rw [Render.bind_apply, bindTurn_apply]
  change (act >>= _) (s.inTurn key item turn) = _
  rw [Render.bind_apply]
  rcases act (s.inTurn key item turn) with ⟨_ | _, t⟩ <;> rfl

theorem Renderer.turns_cons_ok (h : act (s.inTurn key item turn) = (.ok text, t)) :
    turns key item act (turn :: todo) out s = turns key item act todo (out ++ text) t := by
  rw [turns_cons, h]

theorem Renderer.turns_cons_error (h : act (s.inTurn key item turn) = (.error e, t)) :
    turns key item act (turn :: todo) out s = (.error e, t) := by
  rw [turns_cons, h]

theorem Value.EntryAt.drop_loopEntries {i : Nat} {k x : Value} (h : v.EntryAt i k x) :
    v.loopEntries.drop i = (k, x) :: v.loopEntries.drop (i + 1) := by
  obtain ⟨hlt, hget⟩ := List.getElem?_eq_some_iff.1 (loopEntries_getElem?_eq_some_iff.2 h)
  rw [List.drop_eq_getElem_cons hlt, hget]

namespace Visits

/-- A loop goes on with the entries that are not yet visited, behind the texts of those that are. -/
theorem turns_eq (h : Visits v key item act s texts t) :
    turns key item act v.loopEntries "" s =
      turns key item act (v.loopEntries.drop texts.length) (String.join texts) t := by
  induction h with
  | start => rfl
  | @turn texts mid t k x text _ hentry hact ih =>
    rw [ih, hentry.drop_loopEntries, Renderer.turns_cons_ok hact]
    simp [String.join_append]

theorem turns_eq_ok (h : Visits v key item act s texts t) (hall : texts.length = v.count) :
    turns key item act v.loopEntries "" s = (.ok (String.join texts), t) := by
  rw [h.turns_eq, hall, ← Value.length_loopEntries, List.drop_length]
  rfl

theorem turns_eq_error {k x : Value} (h : Visits v key item act s texts mid)
    (hentry : v.EntryAt texts.length k x)
    (hact : act (mid.inTurn key item (k, x)) = (.error e, t)) :
    turns key item act v.loopEntries "" s = (.error e, t) := by
  rw [h.turns_eq, hentry.drop_loopEntries, Renderer.turns_cons_error hact]

end Visits

/-- So many entries are visited, unless there is an error at one of them. -/
theorem exists_visits (v : Value) (key : Option String) (item : String) (act : Render String)
    (s : RenderState) {n : Nat} (hn : n ≤ v.count) :
    (∃ texts t, Visits v key item act s texts t ∧ texts.length = n) ∨
      ∃ texts mid k x e t, Visits v key item act s texts mid ∧ v.EntryAt texts.length k x ∧
        act (mid.inTurn key item (k, x)) = (.error e, t) := by
  induction n with
  | zero => exact .inl ⟨[], s, .start, rfl⟩
  | succ n ih =>
    obtain ⟨texts, mid, h, rfl⟩ | herror := ih (Nat.le_of_succ_le hn)
    · obtain ⟨k, x, hentry⟩ := Value.exists_entryAt hn
      rcases hact : act (mid.inTurn key item (k, x)) with ⟨e | text, t⟩
      · exact .inr ⟨texts, mid, k, x, e, t, h, hentry, hact⟩
      · exact .inl ⟨texts ++ [text], t, .turn h hentry hact, List.length_append⟩
    · exact .inr herror

theorem turns_eq_ok_iff :
    turns key item act v.loopEntries "" s = (.ok out, t) ↔
      ∃ texts, Visits v key item act s texts t ∧ texts.length = v.count ∧
        out = String.join texts := by
  constructor
  · intro h
    obtain ⟨texts, t', hvisits, hall⟩ | ⟨texts, mid, k, x, e, t', hvisits, hentry, hact⟩ :=
      exists_visits v key item act s (Nat.le_refl v.count)
    · rw [hvisits.turns_eq_ok hall] at h
      cases h
      exact ⟨texts, hvisits, hall, rfl⟩
    · rw [hvisits.turns_eq_error hentry hact] at h
      cases h
  · rintro ⟨texts, hvisits, hall, rfl⟩
    exact hvisits.turns_eq_ok hall

theorem turns_eq_error_iff :
    turns key item act v.loopEntries "" s = (.error e, t) ↔
      ∃ texts mid k x, Visits v key item act s texts mid ∧ v.EntryAt texts.length k x ∧
        act (mid.inTurn key item (k, x)) = (.error e, t) := by
  constructor
  · intro h
    obtain ⟨texts, t', hvisits, hall⟩ | ⟨texts, mid, k, x, e', t', hvisits, hentry, hact⟩ :=
      exists_visits v key item act s (Nat.le_refl v.count)
    · rw [hvisits.turns_eq_ok hall] at h
      cases h
    · rw [hvisits.turns_eq_error hentry hact] at h
      cases h
      exact ⟨texts, mid, k, x, hvisits, hentry, hact⟩
  · rintro ⟨texts, mid, k, x, hvisits, hentry, hact⟩
    exact hvisits.turns_eq_error hentry hact

end Turns

namespace Renderer

theorem renderNode_loop (r : Renderer) (enter : Enter) (f : Frame) (source : Expr)
    (key : Option String) (item : String) (body : List Node) (location : Location)
    (s : RenderState) :
    renderNode r enter f (.loop source key item body location) s =
      turns key item (renderNodes r enter f body) (r.evaluator.eval s.context source).loopEntries ""
        s := by
  rw [renderNode]
  exact Render.bind_apply _ _ _

/-- A loop visits the entries that the value of its source has when it begins, one after the other,
whatever the body does to the variables: it ends with the texts of the turns when there is one for
each entry, and with the error of a turn in the state that this turn left. A turn has the item under
its name, and the key under its own unless that is the same. The key of an entry finds its item in the
value. Where there is no entry there is no text, and the state stays as it was. -/
theorem loop_visits_entries (r : Renderer) (enter : Enter) (f : Frame) (source : Expr)
    (key : Option String) (item : String) (body : List Node) (location : Location)
    (s : RenderState) :
    let v := r.evaluator.eval s.context source
    let turn := renderNodes r enter f body
    let loop := renderNode r enter f (.loop source key item body location)
    (∀ out t, loop s = (.ok out, t) ↔
        ∃ texts, Visits v key item turn s texts t ∧
          r.evaluator.apply "count" [v] = .nat texts.length ∧ out = String.join texts) ∧
      (∀ e t, loop s = (.error e, t) ↔
        ∃ texts mid k x, Visits v key item turn s texts mid ∧ v.EntryAt texts.length k x ∧
          turn (mid.inTurn key item (k, x)) = (.error e, t)) ∧
      (∀ (mid : RenderState) (k x : Value) (name : String),
        (mid.inTurn key item (k, x)).context.find? name =
          if name = item then some x
          else if key = some name then some k else mid.context.find? name) ∧
      (v.UniqueNames → ∀ i k x, v.EntryAt i k x →
        v.lookup? k = some x ∧ r.evaluator.apply "array_key_exists" [k, v] = .bool true) ∧
      (v.count = 0 → loop s = (.ok "", s)) := by
  intro v turn loop
  have hloop : loop s = turns key item turn v.loopEntries "" s := renderNode_loop ..
  have hcount (texts : List String) :
      r.evaluator.apply "count" [v] = .nat texts.length ↔ texts.length = v.count := by
    change Value.nat v.count = .nat texts.length ↔ _
    rw [Value.nat_inj, eq_comm]
  refine ⟨fun out t => ?_, fun e t => ?_, fun mid k x name => ?_,
    fun hunique i k x hentry => ?_, fun hnone => ?_⟩
  · rw [hloop, turns_eq_ok_iff]
    simp only [hcount]
  · rw [hloop, turns_eq_error_iff]
  · exact mid.context.find?_bindTurn key item name k x
  · have hfound := hentry.lookup?_eq hunique
    exact ⟨hfound, congrArg (fun found => Value.bool (Option.isSome found)) hfound⟩
  · rw [hloop]
    exact Visits.start.turns_eq_ok hnone.symm

/-- An item under the name of the source, and a source that has no entries. -/
theorem loop_visits_entries_rebound :
    let r := ofSources []
    let enter : Enter := fun _ _ => pure ""
    let body : List Node := [.interpolation (.variable "k" []) false default,
      .text ":" default, .interpolation (.variable "m" []) false default]
    let v : Value := .map [("b", .text "1"), ("a", .text "2")]
    let s : RenderState := ⟨⟨[("m", v)]⟩, [], []⟩
    let t : RenderState := ⟨⟨[("m", .text "2"), ("k", .text "a")]⟩, [], []⟩
    (∃ texts, Visits v (some "k") "m" (renderNodes r enter .outermost body) s texts t ∧
        texts.length = 2 ∧ String.join texts = "b:1a:2") ∧
      v.UniqueNames ∧ v.lookup? (.text "a") = some (.text "2") ∧
      renderNode r enter .outermost (.loop (.variable "k" []) none "m" body default) s =
        (.ok "", s) := by
  intro r enter body v s t
  have hunique : v.UniqueNames :=
    .map (by decide) (by simpa [v] using ⟨.text "1", .text "2"⟩)
  have hrun : renderNode r enter .outermost (.loop (.variable "m" []) (some "k") "m" body default) s =
      (.ok "b:1a:2", t) := by
    cbv
  obtain ⟨hok, -, -, hkeys, -⟩ := loop_visits_entries r enter .outermost (.variable "m" [])
    (some "k") "m" body default s
  obtain ⟨texts, hvisits, hcount, hout⟩ := (hok _ _).1 hrun
  have hlength : 2 = texts.length := Value.nat_inj.1 hcount
  have hlast : v.EntryAt 1 (.text "a") (.text "2") := .map rfl
  obtain ⟨-, -, -, -, hnone⟩ := loop_visits_entries r enter .outermost (.variable "k" []) none "m"
    body default s
  exact ⟨⟨texts, hvisits, hlength.symm, hout.symm⟩, hunique,
    (hkeys hunique _ _ _ hlast).1, hnone rfl⟩

end Renderer

end Templating
