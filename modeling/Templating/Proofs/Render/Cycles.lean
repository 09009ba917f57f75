import Templating.Proofs.Render.GuardStack

/-!
# Cycles

A render fails with a cycle, or for want of levels, at one place only, where a view is about to be
entered; whatever is pending hands the error on. So the error tells of the stack of that moment
(`Engine.Blames`), and each view on a stack was asked for by the one below it, at an earlier state of
the same run (`Engine.AsksIn`).

Where the views can be ranked, each above those that it includes or extends, every view on a stack
takes up a rank. Then no view is asked for by itself, and a stack is no longer than the rank of the
view at its bottom (`Engine.Ranked.rank_add_length_le`).
-/

namespace Templating

def Call.Within : Call → Prop
  | .page _ => False
  | .inclusion _ => False
  | _ => True

namespace Renderer

open Machine

variable {r : Renderer} {pending : List Pending} {s : Store}

theorem exists_of_fetch_eq_ok {name : String} {cache : Cache} {parsed : Parsed}
    (h : (r.fetch name cache).1 = .ok parsed) : ∃ view, r.views name = .ok view := by
  unfold fetch load at h
  cases hv : r.views name with
  | error cause =>
    rw [hv] at h
    cases h
  | ok view => exact ⟨view, rfl⟩

/-- The first step of a node gives a text, asks for the view that it includes, or goes on inside the
view that it is in. -/
theorem beginNode_cases (r : Renderer) (mode : SectionMode) (n : Node) (pending : List Pending)
    (s : Store) :
    (∃ text, r.beginNode mode n pending s = give (.ok text) pending s) ∨
      (∃ view loc, n = .includeView view loc ∧
        r.beginNode mode n pending s =
          call (.inclusion (r.evaluator.output s.context view)) pending s) ∨
      ∃ c pending' t, r.beginNode mode n pending s = call c pending' t ∧ c.Within ∧
        t.stack = s.stack := by
  cases n with
  | text content loc => exact .inl ⟨_, rfl⟩
  | interpolation expr escape loc => exact .inl ⟨_, rfl⟩
  | conditional condition consequent alternate loc =>
    simp only [beginNode]
    split
    · exact .inr (.inr ⟨_, _, _, rfl, trivial, rfl⟩)
    · cases alternate with
      | none => exact .inl ⟨_, rfl⟩
      | some alternate => exact .inr (.inr ⟨_, _, _, rfl, trivial, rfl⟩)
  | loop source key item body loc => exact .inr (.inr ⟨_, _, _, rfl, trivial, rfl⟩)
  | includeView view loc => exact .inr (.inl ⟨view, loc, rfl, rfl⟩)
  | errorBlock field body oneLine loc =>
    simp only [beginNode]
    split
    · exact .inl ⟨_, rfl⟩
    · exact .inr (.inr ⟨_, _, _, rfl, trivial, rfl⟩)
  | yieldSection name default loc => exact .inl ⟨_, rfl⟩
  | sectionBlock name body loc =>
    cases mode with
    | setAside => exact .inl ⟨_, rfl⟩
    | inPlace => exact .inr (.inr ⟨_, _, _, rfl, trivial, rfl⟩)
  | sectionValue name expr loc => exact .inl ⟨_, rfl⟩
  | extendsLayout layout loc => exact .inl ⟨_, rfl⟩
  | csrf loc => exact .inl ⟨_, rfl⟩
  | asset kind paths loc => exact .inl ⟨_, rfl⟩

/-- The compilation of sections ends with a call of the layout; before, it goes on inside the view. -/
theorem beginSections_cases (r : Renderer) (todo : List Section) (done : Entries String)
    (body layout : String) (pending : List Pending) (s : Store) :
    todo = [] ∧ (∃ pending' t, r.beginSections todo done body layout pending s =
        call (.page layout) pending' t ∧ t.stack = s.stack) ∨
      ∃ c pending', r.beginSections todo done body layout pending s = call c pending' s ∧
        c.Within := by
  cases todo with
  | nil => exact .inl ⟨rfl, _, _, rfl, rfl⟩
  | cons part todo =>
    right
    simp only [beginSections]
    split
    · exact ⟨_, _, rfl, trivial⟩
    · cases part with
      | block name tree => exact ⟨_, _, rfl, trivial⟩
      | value name expr => exact ⟨_, _, rfl, trivial⟩

/-- What is pending hands a result on, or it goes on inside a view. It may end a view, and where it
gives an error it was given it. -/
theorem resume_stack (k : Pending) (result : Except RenderError String) (pending : List Pending)
    (s : Store) :
    (∃ result' t, resume k result pending s = give result' pending t ∧
        (t.stack = s.stack ∨ t.stack = s.stack.tail) ∧
        ∀ err, result' = .error err → result = .error err) ∨
      ∃ c t, resume k result pending s = call c pending t ∧ c.Within ∧ t.stack = s.stack := by
  cases k with
  | leave name => exact .inl ⟨_, _, rfl, .inr rfl, fun _ h => h⟩
  | scope ctx oneLine =>
    refine .inl ⟨_, _, rfl, .inl rfl, fun err h => ?_⟩
    cases result with
    | error err' => exact h
    | ok text => cases h
  | layout ctx sections => exact .inl ⟨_, _, rfl, .inl rfl, fun _ h => h⟩
  | body root =>
    cases result with
    | error err => exact .inl ⟨_, _, rfl, .inl rfl, fun _ h => h⟩
    | ok text =>
      simp only [resume]
      cases Node.firstLayout? root.children with
      | none => exact .inl ⟨_, _, rfl, .inl rfl, fun _ h => h⟩
      | some layout => exact .inr ⟨_, _, rfl, trivial, rfl⟩
  | sections name todo done body layout =>
    cases result with
    | error err => exact .inl ⟨_, _, rfl, .inl rfl, fun _ h => h⟩
    | ok text => exact .inr ⟨_, _, rfl, trivial, rfl⟩
  | nodes mode todo out =>
    cases result with
    | error err => exact .inl ⟨_, _, rfl, .inl rfl, fun _ h => h⟩
    | ok text => exact .inr ⟨_, _, rfl, trivial, rfl⟩
  | turns mode key item body todo out =>
    cases result with
    | error err => exact .inl ⟨_, _, rfl, .inl rfl, fun _ h => h⟩
    | ok text => exact .inr ⟨_, _, rfl, trivial, rfl⟩

end Renderer

namespace Engine

def Loads (e : Engine) (name : String) : Prop :=
  ∃ view, e.renderer.views name = .ok view

/-- In the run for an entry, the view `a` asks for the view `b`: at some state `a` is the innermost
view in progress, and an include of it is rendered that names `b` in the context of that moment, or
its sections are compiled and `b` is the layout that it extends. -/
inductive AsksIn (e : Engine) (entry : Entry) (ctx : Context) (a b : String) : Prop where
  | inclusion {m mode view loc}
      (hm : e.renderer.Reaches (e.renderer.start entry ctx e.cache) m)
      (hstack : m.store.stack.head? = some a)
      (hcall : m.control = .call (.node mode (.includeView view loc)))
      (hview : view ∈ Node.includes (e.tree a))
      (hname : e.renderer.evaluator.output m.store.context view = b) : AsksIn e entry ctx a b
  | layout {m done body}
      (hm : e.renderer.Reaches (e.renderer.start entry ctx e.cache) m)
      (hstack : m.store.stack.head? = some a)
      (hcall : m.control = .call (.sections [] done body b))
      (hlayout : Node.firstLayout? (e.tree a) = some b) : AsksIn e entry ctx a b

/-- A view is asked for over these views in progress: by the innermost of them or, where there is
none, by the render itself or by its template. -/
def AskedOver (e : Engine) (entry : Entry) (ctx : Context) (name : String) : List String → Prop
  | [] => ∀ view, entry = .view view → name = view
  | a :: _ => e.AsksIn entry ctx a name

def Entered (e : Engine) (entry : Entry) (ctx : Context) : List String → Prop
  | [] => True
  | name :: outer => e.AskedOver entry ctx name outer ∧ e.Loads name ∧ Entered e entry ctx outer

structure Calls (e : Engine) (entry : Entry) (ctx : Context) (outer : List String) (name : String) :
    Prop where
  nodup : outer.Nodup
  entered : e.Entered entry ctx (name :: outer)

/-- What an error tells of the run: a cycle ends with a view that was asked for while it was in
progress, and the limit was met by a stack of that length. -/
def Blames (e : Engine) (entry : Entry) (ctx : Context) : RenderError → Prop
  | .circular chain => ∃ outer name, e.Calls entry ctx outer name ∧ name ∈ outer ∧
      chain = Renderer.cycleOf outer name
  | .depthExceeded _ => ∃ outer name, e.Calls entry ctx outer name ∧
      e.renderer.options.maxDepth ≤ outer.length
  | _ => True

def Foretold (e : Engine) (entry : Entry) (ctx : Context) (stack : List String) : Call → Prop
  | .page name => e.AskedOver entry ctx name stack
  | .inclusion name => e.AskedOver entry ctx name stack
  | _ => True

/-- Every view on the stack was asked for over those below it, and an error tells of the run. -/
structure Traced (e : Engine) (entry : Entry) (ctx : Context) (m : Machine) : Prop where
  entered : e.Entered entry ctx m.store.stack
  foretold : ∀ c, m.control = .call c → e.Foretold entry ctx m.store.stack c
  blames : ∀ err, m.control = .result (.error err) → e.Blames entry ctx err

variable {e : Engine} {entry : Entry} {ctx : Context} {pending : List Pending} {s : Store}

variable (entry ctx) in
theorem blames_of_check {name : String} {parsed : Parsed} {err : RenderError}
    (h : e.renderer.check name parsed = .error err) : e.Blames entry ctx err := by
  unfold Renderer.check at h
  split at h
  · cases h
    trivial
  · cases h

variable (entry ctx) in
theorem blames_of_fetch {name : String} {cache : Cache} {err : RenderError}
    (h : (e.renderer.fetch name cache).1 = .error err) : e.Blames entry ctx err := by
  unfold Renderer.fetch Renderer.load at h
  cases hv : e.renderer.views name with
  | error cause =>
    rw [hv] at h
    cases h
    cases cause <;> trivial
  | ok view =>
    rw [hv] at h
    exact blames_of_check entry ctx h

namespace Traced

theorem give (h : e.Entered entry ctx s.stack) {result : Except RenderError String}
    (hresult : ∀ err, result = .error err → e.Blames entry ctx err) :
    e.Traced entry ctx (Machine.give result pending s) where
  entered := h
  foretold := fun _ hc => by cases hc
  blames := by
    rintro err ⟨⟩
    exact hresult err rfl

theorem text (h : e.Entered entry ctx s.stack) (text : String) :
    e.Traced entry ctx (Machine.give (.ok text) pending s) :=
  give h nofun

theorem failure {err : RenderError} (h : e.Entered entry ctx s.stack)
    (herr : e.Blames entry ctx err) : e.Traced entry ctx (Machine.give (.error err) pending s) := by
  refine give h ?_
  rintro _ ⟨⟩
  exact herr

theorem call {c : Call} (h : e.Entered entry ctx s.stack) (hc : e.Foretold entry ctx s.stack c) :
    e.Traced entry ctx (Machine.call c pending s) where
  entered := h
  foretold := by
    rintro _ ⟨⟩
    exact hc
  blames := fun _ hresult => by cases hresult

theorem within {c : Call} (h : e.Entered entry ctx s.stack) (hc : c.Within) :
    e.Traced entry ctx (Machine.call c pending s) := by
  refine call h ?_
  cases c <;> first | exact trivial | cases hc

/-- A view that is asked for is entered, or the error tells why it is not. -/
theorem enter {name : String} {inside : Call} (h : e.Calls entry ctx s.stack name)
    (hinside : inside.Within) : e.Traced entry ctx (e.renderer.enter name inside pending s) := by
  have hstack : e.Entered entry ctx s.stack := h.entered.2.2
  unfold Renderer.enter
  split
  · rename_i hmem
    exact failure hstack ⟨s.stack, name, h, hmem, rfl⟩
  · split
    · rename_i hlength
      exact failure hstack ⟨s.stack, name, h, hlength⟩
    · exact within (s := { s with stack := name :: s.stack }) h.entered hinside

variable (hstack : e.Entered entry ctx s.stack) (hnodup : s.stack.Nodup) {name : String}
  (hasked : e.AskedOver entry ctx name s.stack)

include hstack hnodup hasked

theorem beginPage : e.Traced entry ctx (e.renderer.beginPage name pending s) := by
  unfold Renderer.beginPage
  rcases hfetch : e.renderer.fetch name s.cache with ⟨err | parsed, cache⟩
  · have hblames := blames_of_fetch entry ctx (congrArg Prod.fst hfetch)
    exact failure (s := { s.ask name with cache := cache }) hstack hblames
  · have hloads : e.Loads name := Renderer.exists_of_fetch_eq_ok (congrArg Prod.fst hfetch)
    exact enter (s := { s.ask name with cache := cache }) ⟨hnodup, hasked, hloads, hstack⟩ trivial

theorem beginInclusion : e.Traced entry ctx (e.renderer.beginInclusion name pending s) := by
  unfold Renderer.beginInclusion
  split
  · exact text hstack ""
  · rcases hfetch : e.renderer.fetch name s.cache with ⟨err | parsed, cache⟩
    · have hblames := blames_of_fetch entry ctx (congrArg Prod.fst hfetch)
      cases err with
      | viewNotFound view path => exact text (s := { s.ask name with cache := cache }) hstack ""
      | _ => exact failure (s := { s.ask name with cache := cache }) hstack hblames
    · have hloads : e.Loads name := Renderer.exists_of_fetch_eq_ok (congrArg Prod.fst hfetch)
      exact enter (s := { s.ask name with cache := cache }) ⟨hnodup, hasked, hloads, hstack⟩ trivial

end Traced

/-- What a tree asks for is asked for over its stack. Where no view is in progress there is no entry
that is a view. -/
theorem askedOver_of_inclusion {m : Machine} {mode : SectionMode} {view : Expr} {loc : Location}
    (hm : e.renderer.Reaches (e.renderer.start entry ctx e.cache) m)
    (hcall : m.control = .call (.node mode (.includeView view loc))) :
    e.AskedOver entry ctx (e.renderer.evaluator.output m.store.context view) m.store.stack := by
  have hmakes := (ordered_of_reaches hm).control _ hcall
  obtain hnode : [view] ⊆ Node.includes (e.treeAt entry m.store.stack) := by
    cases hmakes with
    | node h => simpa only [Node.includesOf] using h
  have hview := hnode List.mem_cons_self
  cases hstack : m.store.stack with
  | nil =>
    rintro name rfl
    rw [hstack] at hview
    cases hview
  | cons a outer =>
    rw [hstack] at hview
    exact .inclusion hm (by rw [hstack]; rfl) hcall hview rfl

theorem askedOver_of_sections {m : Machine} {done : Entries String} {body layout : String}
    (hm : e.renderer.Reaches (e.renderer.start entry ctx e.cache) m)
    (hcall : m.control = .call (.sections [] done body layout)) :
    e.AskedOver entry ctx layout m.store.stack := by
  have hmakes := (ordered_of_reaches hm).control _ hcall
  obtain hlayout : Node.firstLayout? (e.treeAt entry m.store.stack) = some layout := by
    cases hmakes with
    | sections _ h => exact h
  cases hstack : m.store.stack with
  | nil =>
    rintro name rfl
    rw [hstack] at hlayout
    cases hlayout
  | cons a outer =>
    rw [hstack] at hlayout
    exact .layout hm (by rw [hstack]; rfl) hcall hlayout

theorem Entered.tail {stack : List String} (h : e.Entered entry ctx stack) :
    e.Entered entry ctx stack.tail := by
  cases stack with
  | nil => trivial
  | cons name outer => exact h.2.2

theorem Traced.next {m m' : Machine} (hm : e.renderer.Reaches (e.renderer.start entry ctx e.cache) m)
    (h : e.Traced entry ctx m) (hnext : e.renderer.next? m = some m') : e.Traced entry ctx m' := by
  have hnodup := (ordered_of_reaches hm).sound.order.guarded.nodup
  obtain ⟨control, pending, s⟩ := m
  cases control with
  | call c =>
    cases hnext
    cases c with
    | page name => exact beginPage h.entered hnodup (h.foretold _ rfl)
    | inclusion name => exact beginInclusion h.entered hnodup (h.foretold _ rfl)
    | root root => exact within h.entered trivial
    | sections todo done body layout =>
      rcases e.renderer.beginSections_cases todo done body layout pending s with
        ⟨rfl, pending', t, heq, hstack⟩ | ⟨c, pending', heq, hc⟩
      · simp only [Renderer.begin, heq]
        have hasked := askedOver_of_sections hm rfl
        exact call (hstack ▸ h.entered) (hstack ▸ hasked)
      · simp only [Renderer.begin, heq]
        exact within h.entered hc
    | nodes mode todo out =>
      cases todo with
      | nil => exact text h.entered _
      | cons n todo => exact within h.entered trivial
    | node mode n =>
      rcases e.renderer.beginNode_cases mode n pending s with
        ⟨_, heq⟩ | ⟨view, loc, rfl, heq⟩ | ⟨c, pending', t, heq, hc, hstack⟩
      · simp only [Renderer.begin, heq]
        exact text h.entered _
      · simp only [Renderer.begin, heq]
        exact call h.entered (askedOver_of_inclusion hm rfl)
      · simp only [Renderer.begin, heq]
        exact within (hstack ▸ h.entered) hc
    | turns mode key item body todo out =>
      cases todo with
      | nil => exact text h.entered _
      | cons turn todo => exact within h.entered trivial
  | result result =>
    cases pending with
    | nil => cases hnext
    | cons k pending =>
      cases hnext
      rcases Renderer.resume_stack k result pending s with
        ⟨result', t, heq, hstack, herror⟩ | ⟨c, t, heq, hc, hstack⟩
      · rw [heq]
        have hentered : e.Entered entry ctx t.stack := by
          rcases hstack with hstack | hstack
          · exact hstack ▸ h.entered
          · exact hstack ▸ Entered.tail h.entered
        exact give hentered fun err herr => h.blames err (congrArg _ (herror err herr))
      · rw [heq]
        exact within (hstack ▸ h.entered) hc

/-- In every state of a run the stack is traced, and so is an error that has come up. -/
theorem traced_of_reaches {m : Machine}
    (h : e.renderer.Reaches (e.renderer.start entry ctx e.cache) m) : e.Traced entry ctx m := by
  induction h with
  | refl =>
    cases entry with
    | view name =>
      refine Traced.call (s := .initial ctx e.cache) trivial ?_
      rintro view ⟨⟩
      rfl
    | source text =>
      rw [Renderer.start]
      cases hcheck : e.renderer.check Renderer.inlineName
        (parseTemplate e.renderer.options.markers text) with
      | error cause =>
        exact Traced.failure (s := .initial ctx e.cache) trivial (blames_of_check _ ctx hcheck)
      | ok parsed => exact Traced.within (s := .initial ctx e.cache) trivial trivial
  | tail hm hstep ih => exact ih.next hm hstep

theorem blames_of_render {err : RenderError} (h : (e.render entry ctx).result = .error err) :
    e.Blames entry ctx err := by
  have hend := traced_of_reaches (e.renderer.reaches_render entry ctx e.cache)
  exact hend.blames err (congrArg _ h)

/-! ## Chains -/

theorem Entered.isChain {stack : List String} (h : e.Entered entry ctx stack) :
    stack.IsChain fun b a => e.AsksIn entry ctx a b := by
  induction stack with
  | nil => exact .nil
  | cons name outer ih =>
    cases outer with
    | nil => exact .singleton _
    | cons a outer => exact .cons_cons h.1 (ih h.2.2)

theorem cycleOf_eq_reverse (chain : List String) (name : String) :
    Renderer.cycleOf chain name = (name :: (chain.takeWhile (· ≠ name) ++ [name])).reverse := by
  simp [Renderer.cycleOf]

theorem takeWhile_ne_append_prefix {chain : List String} {name : String} (h : name ∈ chain) :
    chain.takeWhile (· ≠ name) ++ [name] <+: chain := by
  induction chain with
  | nil => cases h
  | cons view chain ih =>
    by_cases hview : view = name
    · simp [hview]
    · have hmem := (List.mem_cons.1 h).resolve_left (Ne.symm hview)
      simpa [hview] using ih hmem

/-- A cycle names views of which each asked for the next, and none twice but the first, which is
also the last. -/
theorem Calls.cycle {outer : List String} {name : String} (h : e.Calls entry ctx outer name)
    (hmem : name ∈ outer) :
    ∃ inner, Renderer.cycleOf outer name = name :: inner ++ [name] ∧ (name :: inner).Nodup ∧
      (Renderer.cycleOf outer name).IsChain (e.AsksIn entry ctx) := by
  have hprefix := takeWhile_ne_append_prefix hmem
  refine ⟨(outer.takeWhile (· ≠ name)).reverse, rfl, ?_, ?_⟩
  · rw [List.nodup_cons, List.mem_reverse, List.nodup_reverse]
    refine ⟨fun hname => ?_, h.nodup.sublist (List.takeWhile_sublist _)⟩
    exact absurd (List.mem_takeWhile_imp hname) (by simp)
  · rw [cycleOf_eq_reverse, List.isChain_reverse]
    exact h.entered.isChain.prefix (List.cons_prefix_cons.2 ⟨rfl, hprefix⟩)

/-! ## Ranks -/

/-- Every include names its view, and each view has a greater rank than the views that it includes or
extends, as far as they are there. -/
structure Ranked (e : Engine) (rank : String → Nat) : Prop where
  literal : ∀ view, ∀ expr ∈ Node.includes (e.tree view), ∃ name, expr = .literal (.text name)
  include_lt : ∀ view name, .literal (.text name) ∈ Node.includes (e.tree view) → e.Loads name →
    rank name < rank view
  layout_lt : ∀ view name, Node.firstLayout? (e.tree view) = some name → e.Loads name →
    rank name < rank view

namespace Ranked

variable {rank : String → Nat} {view name : String} {outer : List String}

theorem lt_of_asksIn (h : e.Ranked rank) {a b : String} (hasks : e.AsksIn entry ctx a b)
    (hloads : e.Loads b) : rank b < rank a := by
  cases hasks with
  | inclusion _ _ _ hview hname =>
    obtain ⟨named, rfl⟩ := h.literal a _ hview
    obtain rfl : named = b := hname
    exact h.include_lt a named hview hloads
  | layout _ _ _ hlayout => exact h.layout_lt a b hlayout hloads

/-- Every view in progress takes up a rank. -/
theorem rank_add_length_le (h : e.Ranked rank)
    (hentered : e.Entered (.view view) ctx (name :: outer)) :
    rank name + outer.length ≤ rank view := by
  induction outer generalizing name with
  | nil =>
    obtain rfl := hentered.1 view rfl
    exact Nat.le_refl _
  | cons a outer ih =>
    have hlt := h.lt_of_asksIn hentered.1 hentered.2.1
    have hle := ih hentered.2.2
    rw [List.length_cons]
    omega

theorem lt_of_mem (h : e.Ranked rank) (hentered : e.Entered entry ctx (name :: outer)) :
    ∀ a ∈ outer, rank name < rank a := by
  induction outer generalizing name with
  | nil => exact fun a ha => by cases ha
  | cons b outer ih =>
    have hlt := h.lt_of_asksIn hentered.1 hentered.2.1
    intro a ha
    rcases List.mem_cons.1 ha with rfl | ha
    · exact hlt
    · exact hlt.trans (ih hentered.2.2 a ha)

end Ranked

/-- Cycle errors are real, and views that can be ranked never fail the guard. A cycle that a render
reports is a list of views of which each asked for the next in that run; the first is also the last,
and the others are different. Conversely, when every include names its view and each view has a
greater rank than those it includes or extends, a view whose rank is below the limit is rendered
without a cycle and within the limit, whatever the context. -/
theorem cycle_errors_are_real (e : Engine) :
    (∀ entry ctx chain, (e.render entry ctx).result = .error (.circular chain) →
      ∃ first inner, chain = first :: inner ++ [first] ∧ (first :: inner).Nodup ∧
        chain.IsChain (e.AsksIn entry ctx)) ∧
    ∀ rank, e.Ranked rank → ∀ view, rank view < e.renderer.options.maxDepth → ∀ ctx,
      (∀ chain, (e.render (.view view) ctx).result ≠ .error (.circular chain)) ∧
      ∀ limit, (e.render (.view view) ctx).result ≠ .error (.depthExceeded limit) := by
  refine ⟨fun entry ctx chain h => ?_, fun rank hrank view hview ctx =>
    ⟨fun chain h => ?_, fun limit h => ?_⟩⟩
  · obtain ⟨outer, name, hcalls, hmem, rfl⟩ := blames_of_render h
    exact ⟨name, hcalls.cycle hmem⟩
  · obtain ⟨outer, name, hcalls, hmem, -⟩ := blames_of_render h
    exact Nat.lt_irrefl _ (hrank.lt_of_mem hcalls.entered name hmem)
  · obtain ⟨outer, name, hcalls, hlength⟩ := blames_of_render h
    have hle := hrank.rank_add_length_le hcalls.entered
    omega

/-- Two views that include each other, the first of them as the layout of a page. -/
def ringRenderer : Renderer :=
  .ofSources [("page", "@extends('a')"), ("a", "@if(true)@include('b')@endif"),
    ("b", "{{ $x }}@include('a')")]

/-- A page and its layout, both of which include the same view; no more than three may nest. -/
def diamondRenderer : Renderer :=
  { Renderer.ofSources
      [("page", "@extends('main')@section('body')@include('item')@include('item')@endsection"),
        ("main", "@include('item')@yield('body')"), ("item", "x")] with
    options := { RenderOptions.standard with maxDepth := 3 } }

def diamondRank : String → Nat
  | "page" => 2
  | "main" => 1
  | _ => 0

theorem asks_diamond (name : String) :
    let ns := (new diamondRenderer).tree name
    (name = "page" ∧ Node.includes ns = [.literal (.text "item"), .literal (.text "item")] ∧
        Node.firstLayout? ns = some "main") ∨
      (name = "main" ∧ Node.includes ns = [.literal (.text "item")] ∧ Node.firstLayout? ns = none) ∨
      Node.includes ns = [] ∧ Node.firstLayout? ns = none := by
  by_cases hpage : name = "page"
  · subst hpage
    exact .inl ⟨rfl, Prod.mk.inj (by cbv)⟩
  · by_cases hmain : name = "main"
    · subst hmain
      exact .inr (.inl ⟨rfl, Prod.mk.inj (by cbv)⟩)
    · by_cases hitem : name = "item"
      · subst hitem
        exact .inr (.inr (Prod.mk.inj (by cbv)))
      · have htree : (new diamondRenderer).tree name = [] := by
          simp [tree, parsed?, new, diamondRenderer, Renderer.ofSources,
            Views.inMemory, Entries.find?_cons, Ne.symm hpage, Ne.symm hmain, Ne.symm hitem]
        rw [htree]
        exact .inr (.inr ⟨rfl, rfl⟩)

theorem ranked_diamond : (new diamondRenderer).Ranked diamondRank where
  literal := by
    intro view expr hexpr
    rcases asks_diamond view with ⟨-, h, -⟩ | ⟨-, h, -⟩ | ⟨h, -⟩ <;> rw [h] at hexpr <;>
      simp at hexpr <;> exact ⟨_, hexpr⟩
  include_lt := by
    intro view name hname _
    rcases asks_diamond view with ⟨rfl, h, -⟩ | ⟨rfl, h, -⟩ | ⟨h, -⟩ <;> rw [h] at hname <;>
      simp at hname <;> subst hname <;> decide
  layout_lt := by
    intro view name hname _
    rcases asks_diamond view with ⟨rfl, -, h⟩ | ⟨rfl, -, h⟩ | ⟨-, h⟩ <;> rw [h] at hname <;>
      cases hname
    decide

theorem cycle_errors_are_real_ring :
    let ring := new ringRenderer
    let diamond := new diamondRenderer
    ((ring.render (.view "page") Context.empty).result = .error (.circular ["a", "b", "a"]) ∧
      ring.AsksIn (.view "page") Context.empty "a" "b" ∧
      ring.AsksIn (.view "page") Context.empty "b" "a") ∧
    diamond.Ranked diamondRank ∧ diamondRank "page" < 3 ∧
      ∀ chain, (diamond.render (.view "page") Context.empty).result ≠ .error (.circular chain) := by
  intro ring diamond
  have hcircular : (ring.render (.view "page") Context.empty).result =
      .error (.circular ["a", "b", "a"]) := by cbv
  obtain ⟨first, inner, -, -, hchain⟩ := (cycle_errors_are_real ring).1 _ _ _ hcircular
  obtain ⟨hab, hba⟩ : ring.AsksIn (.view "page") Context.empty "a" "b" ∧
      ring.AsksIn (.view "page") Context.empty "b" "a" := by simpa using hchain
  have hlt : diamondRank "page" < 3 := by decide
  have hsafe := (cycle_errors_are_real diamond).2 diamondRank ranked_diamond "page" hlt Context.empty
  exact ⟨⟨hcircular, hab, hba⟩, ranked_diamond, hlt, hsafe.1⟩

end Engine

end Templating
