import Mathlib.Logic.Relation
import Templating.Render.Machine
import Templating.Proofs.Render.Agreement

/-!
# The machine renders

What a render does in a frame the machine does in a store with the stack and the sections of the
frame: it comes to the same result, it leaves the same context, cache and requests, and the stack and
the sections are again those of the frame (`Performs`). Trees go by their recursion, views by the
levels that are left; that these are what the stack lacks of the limit shows where a view is entered
(`reaches_enter`), and nowhere else.

So every call ends. A result goes on with what is pending, of which there is one less then, so every
run of the machine ends too (`render_ends`).
-/

namespace Templating

def Renderer.Reaches (r : Renderer) : Machine → Machine → Prop :=
  Relation.ReflTransGen fun m m' => r.next? m = some m'

def Request.asked (q : Request) : Asked :=
  ⟨q.view, q.frame.chain, q.frame.sections⟩

/-- The store of the machine in which a render is in this state and this frame. -/
def Frame.store (f : Frame) (st : RenderState) : Store :=
  ⟨st.context, st.cache, f.chain, f.sections, st.requests.map Request.asked⟩

def Store.frame (s : Store) (mode : SectionMode) : Frame :=
  ⟨s.stack, s.sections, mode, false⟩

/-- Every store is that of some state in its frame. -/
theorem Store.exists_eq (s : Store) (mode : SectionMode) : ∃ st, (s.frame mode).store st = s := by
  let request (a : Asked) : Request := ⟨a.view, .entry, ⟨a.stack, a.sections, mode, false⟩⟩
  have hasked : (s.asked.map request).map Request.asked = s.asked := by
    rw [List.map_map]
    exact List.map_id' s.asked
  refine ⟨⟨s.context, s.cache, s.asked.map request⟩, ?_⟩
  rw [Frame.store, hasked]
  rfl

/-- The machine where a call has ended as a render in the frame did. -/
def Machine.ended (pending : List Pending) (f : Frame)
    (outcome : Except RenderError String × RenderState) : Machine :=
  .give outcome.1 pending (f.store outcome.2)

namespace Renderer

open Machine

theorem note_load_eq_fetch (r : Renderer) (q : Request) (name : String) (s : RenderState) :
    (Render.note q >>= fun _ => r.load name) s =
      ((r.fetch name s.cache).1,
        { s with cache := (r.fetch name s.cache).2, requests := q :: s.requests }) := by
  change r.load name { s with requests := q :: s.requests } = _
  unfold fetch load
  cases r.views name <;> rfl

theorem bindTurn_apply (key : Option String) (item : String) (turn : Value × Value)
    (s : RenderState) :
    bindTurn key item turn s = (.ok (), { s with context := s.context.bindTurn key item turn }) := by
  cases key <;> rfl

theorem detached_bind_pure {α β : Type} (ctx : Context) (act : Render α) (g : α → β)
    (s : RenderState) :
    (Render.detached ctx act >>= fun a => pure (g a)) s =
      ((act { s with context := ctx }).1.map g,
        { (act { s with context := ctx }).2 with context := s.context }) := by
  rw [Render.bind_apply, Render.detached]
  rcases act { s with context := ctx } with ⟨_ | _, t⟩ <;> rfl

theorem lift_ok_bind {α β : Type} (a : α) (next : α → Render β) (s : RenderState) :
    ((liftM (Except.ok a : Except RenderError α) : Render α) >>= next) s = next a s := rfl

variable {r : Renderer} {m m' : Machine} {c : Call} {k : Pending} {pending : List Pending}
  {s : Store} {f : Frame} {st : RenderState}

namespace Reaches

theorem of_begin (h : r.Reaches (r.begin c pending s) m) : r.Reaches (call c pending s) m :=
  .head rfl h

/-- What is pending goes on with the text of a render; an error it hands on. -/
theorem bind {act : Render String} {next : String → Render String}
    (h : r.Reaches m (ended (k :: pending) f (act st)))
    (herror : ∀ e t, resume k (.error e) pending t = give (.error e) pending t)
    (hok : ∀ text t, r.Reaches (resume k (.ok text) pending (f.store t))
      (ended pending f (next text t))) :
    r.Reaches m (ended pending f ((act >>= next) st)) := by
  refine h.trans (.head rfl ?_)
  rw [Render.bind_apply]
  rcases act st with ⟨e | text, t⟩
  · rw [herror]
    exact .refl
  · exact hok text t

end Reaches

/-- Wherever a render is in the frame, the machine does with the call what `act` does, and all else
stays as it was: what is pending, the stack and the sections. -/
def Performs (r : Renderer) (c : Call) (f : Frame) (act : Render String) : Prop :=
  ∀ pending st, r.Reaches (call c pending (f.store st)) (ended pending f (act st))

/-! ## Trees -/

def Behind (out : String) (act : Render String) : Render String := do
  return out ++ (← act)

theorem behind_empty (act : Render String) : Behind "" act = act := by
  simp [Behind]

theorem Performs.nodes_empty {mode : SectionMode} {ns : List Node} {act : Render String}
    (h : r.Performs (.nodes mode ns "") f (Behind "" act)) : r.Performs (.nodes mode ns "") f act :=
  behind_empty act ▸ h

theorem performs_turns {key : Option String} {item : String} {body : List Node} {act : Render String}
    (hbody : r.Performs (.nodes f.mode body "") f act) (todo : List (Value × Value)) (out : String) :
    r.Performs (.turns f.mode key item body todo out) f
      (todo.foldlM (fun out turn => do
        bindTurn key item turn
        return out ++ (← act)) out) := by
  -- Each turn goes on behind the text of those before, so the induction is for any such text.
  induction todo generalizing out with
  | nil => exact fun pending st => .of_begin .refl
  | cons turn todo ih =>
    intro pending st
    have hturn := hbody (.turns f.mode key item body todo out :: pending)
      { st with context := st.context.bindTurn key item turn }
    rw [List.foldlM_cons]
    simp only [bind_assoc, pure_bind]
    rw [Render.bind_apply, bindTurn_apply]
    exact .of_begin (hturn.bind (fun _ _ => rfl) fun text t => ih (out ++ text) pending t)

/-- Includes are performed when `depth` views are in progress. -/
def PerformsIncludes (r : Renderer) (enter : Enter) (depth : Nat) : Prop :=
  ∀ f name, f.chain.length = depth → r.Performs (.inclusion name) f (enter f name)

section Trees

variable {enter : Enter} {depth : Nat}

mutual

/-- The machine renders a node as long as it renders includes. -/
theorem performs_renderNode (henter : r.PerformsIncludes enter depth) (f : Frame)
    (hf : f.chain.length = depth) :
    ∀ n : Node, r.Performs (.node f.mode n) f (r.renderNode enter f n)
  | .text content _ => by
    rw [renderNode]
    exact fun pending st => .of_begin .refl
  | .interpolation expr escape _ => by
    rw [renderNode]
    exact fun pending st => .of_begin .refl
  | .conditional condition consequent none _ => by
    rw [renderNode]
    intro pending st
    refine .of_begin ?_
    change r.Reaches (if r.evaluator.condition st.context condition then _ else _) (ended pending f
      ((if r.evaluator.condition st.context condition then _ else _ : Render String) _))
    split
    · exact (performs_renderNodes henter f hf consequent "").nodes_empty pending st
    · exact .refl
  | .conditional condition consequent (some alternate) _ => by
    rw [renderNode]
    intro pending st
    refine .of_begin ?_
    change r.Reaches (if r.evaluator.condition st.context condition then _ else _) (ended pending f
      ((if r.evaluator.condition st.context condition then _ else _ : Render String) _))
    split
    · exact (performs_renderNodes henter f hf consequent "").nodes_empty pending st
    · exact (performs_renderNodes henter f hf alternate "").nodes_empty pending st
  | .loop source key item body _ => by
    rw [renderNode]
    exact fun pending st => .of_begin
      (performs_turns (performs_renderNodes henter f hf body "").nodes_empty _ "" pending st)
  | .includeView view _ => by
    rw [renderNode]
    exact fun pending st => .of_begin (henter f _ hf pending st)
  | .errorBlock field body oneLine _ => by
    rw [renderNode]
    intro pending st
    refine .of_begin ?_
    have hcontext : Render.context st = (.ok st.context, st) := rfl
    rw [Render.bind_apply, hcontext]
    simp only [begin, beginNode, Frame.store]
    cases r.messageFor? st.context (r.evaluator.output st.context field) with
    | none => exact .refl
    | some message =>
      have hbody := (performs_renderNodes henter f.detach hf body "").nodes_empty
        (.scope st.context oneLine :: pending)
        { st with context := st.context.bind "message" message }
      simp only [detached_bind_pure]
      exact hbody.tail rfl
  | .yieldSection name default _ => by
    rw [renderNode]
    exact fun pending st => .of_begin .refl
  | .sectionBlock _ body _ => by
    have hbody := (performs_renderNodes henter f hf body "").nodes_empty
    rw [renderNode]
    intro pending st
    generalize f.mode = mode at hbody ⊢
    cases mode with
    | setAside => exact .of_begin .refl
    | inPlace => exact .of_begin (hbody pending st)
  | .sectionValue _ _ _ => by
    rw [renderNode]
    exact fun pending st => .of_begin .refl
  | .extendsLayout _ _ => by
    rw [renderNode]
    exact fun pending st => .of_begin .refl
  | .csrf _ => by
    rw [renderNode]
    exact fun pending st => .of_begin .refl
  | .asset kind paths _ => by
    rw [renderNode]
    exact fun pending st => .of_begin .refl

theorem performs_renderNodes (henter : r.PerformsIncludes enter depth) (f : Frame)
    (hf : f.chain.length = depth) :
    ∀ (ns : List Node) (out : String),
      r.Performs (.nodes f.mode ns out) f (Behind out (r.renderNodes enter f ns))
  | [], out => by
    have hout : Behind out (r.renderNodes enter f []) = pure out := by simp [Behind, renderNodes]
    rw [hout]
    exact fun pending st => .of_begin .refl
  | n :: ns, out => by
    have hout : Behind out (r.renderNodes enter f (n :: ns)) =
        r.renderNode enter f n >>= fun text => Behind (out ++ text) (r.renderNodes enter f ns) := by
      simp [Behind, renderNodes, String.append_assoc]
    intro pending st
    have hnode := performs_renderNode henter f hf n (.nodes f.mode ns out :: pending) st
    rw [hout]
    exact .of_begin (hnode.bind (fun _ _ => rfl) fun text t =>
      performs_renderNodes henter f hf ns (out ++ text) pending t)

end

end Trees

/-! ## Views and pages -/

/-- The machine enters a view as long as it renders what is inside: the levels that are left are
those of the stack up to the limit. -/
theorem reaches_enter (st : RenderState) {name : String} {inside : Call} {levels : Nat}
    {next : Nat → Frame → Render String} (hlevels : levels = r.options.maxDepth - f.chain.length)
    (hinside : ∀ rest, levels = rest + 1 → rest = r.options.maxDepth - (f.chain.length + 1) →
      r.Performs inside { f with chain := name :: f.chain }
        (next rest { f with chain := name :: f.chain })) :
    r.Reaches (r.enter name inside pending (f.store st))
      (ended pending f ((do
        let inner ← enterFrame f name
        match levels with
        | 0 => throw (.depthExceeded r.options.maxDepth)
        | levels + 1 => next levels inner : Render String) st)) := by
  have hchain : (f.store st).stack = f.chain := rfl
  unfold enter enterFrame
  rw [hchain]
  split
  · exact .refl
  · cases levels with
    | zero =>
      rw [if_pos (by omega)]
      exact .refl
    | succ levels =>
      rw [if_neg (by omega), lift_ok_bind]
      have hreaches := hinside levels rfl (by omega) (.leave name :: pending) st
      exact hreaches.tail rfl

theorem performs_renderInclude (levels : Nat) (f : Frame) (name : String)
    (hlevels : levels = r.options.maxDepth - f.chain.length) :
    r.Performs (.inclusion name) f (r.renderInclude levels f name) := by
  intro pending st
  refine .of_begin ?_
  rw [renderInclude]
  simp only [begin, beginInclusion]
  split
  · exact .refl
  · have hload := note_load_eq_fetch r ⟨name, .inclusion, f⟩ name st
    rw [← bind_assoc, Render.bind_apply, Link.loadIncluded_apply r ⟨name, .inclusion, f⟩, hload]
    simp only [Frame.store]
    rcases r.fetch name st.cache with ⟨e | parsed, cache⟩
    · cases e <;> exact .refl
    · let loaded : RenderState := ⟨st.context, cache, ⟨name, .inclusion, f⟩ :: st.requests⟩
      -- Which views come next is only known from the context, so nothing but the levels goes down.
      refine reaches_enter loaded hlevels fun rest _ hrest => ?_
      have henter : r.PerformsIncludes (r.renderInclude rest) (f.chain.length + 1) :=
        fun g view hg => performs_renderInclude rest g view (by omega)
      let inner : Frame := { f with chain := name :: f.chain, mode := .inPlace }
      exact (performs_renderNodes henter inner rfl parsed.root.children "").nodes_empty
termination_by levels

theorem performsIncludes_renderInclude {levels depth : Nat}
    (h : levels = r.options.maxDepth - depth) : r.PerformsIncludes (r.renderInclude levels) depth :=
  fun f name hf => performs_renderInclude levels f name (hf ▸ h)

/-- Layouts of a page in the frame are performed, with whatever sections they are given. -/
def PerformsLayouts (r : Renderer) (layout : Enter) (f : Frame) : Prop :=
  ∀ sections name, r.Performs (.page name) { f.detach with sections := sections }
    (layout { f.detach with sections := sections } name)

/-- The end of a page that extends a layout: its sections are compiled and the layout is rendered. -/
def handOver (r : Renderer) (enter layout : Enter) (f : Frame) (todo : List Section)
    (done : Entries String) (body name : String) : Render String := do
  let own ← r.renderSections enter f done todo
  let sections := handSections f.sections own body
  let ctx ← Render.context
  Render.detached (layoutContext ctx sections)
    (layout { f.detach with sections := sections } name)

section Pages

variable {enter layout : Enter}

theorem handOver_nil (done : Entries String) (body name : String) (st : RenderState) :
    r.handOver enter layout f [] done body name st =
      Render.detached (layoutContext st.context (handSections f.sections done body))
        (layout { f.detach with sections := handSections f.sections done body } name) st := rfl

theorem handOver_of_contains {done : Entries String} {part : Section}
    (h : Entries.contains part.name done = true) (todo : List Section) (body name : String) :
    r.handOver enter layout f (part :: todo) done body name =
      r.handOver enter layout f todo done body name := by
  rw [handOver, renderSections, if_pos h, handOver]

theorem handOver_cons {done : Entries String} {part : Section}
    (h : ¬ Entries.contains part.name done = true) (todo : List Section) (body name : String) :
    r.handOver enter layout f (part :: todo) done body name =
      r.renderSection enter f part >>= fun text =>
        r.handOver enter layout f todo (Entries.insert part.name text done) body name := by
  simp only [handOver, renderSections, if_neg h, bind_assoc]

variable (henter : r.PerformsIncludes enter f.chain.length) (hmode : f.mode = .setAside)
  (hlayout : r.PerformsLayouts layout f)

include henter hmode hlayout

theorem performs_handOver (todo : List Section) (done : Entries String) (body name : String) :
    r.Performs (.sections todo done body name) f (r.handOver enter layout f todo done body name) := by
  induction todo generalizing done with
  | nil =>
    intro pending st
    have hpage := hlayout (handSections f.sections done body) name
      (.layout st.context f.sections :: pending)
      { st with context := layoutContext st.context (handSections f.sections done body) }
    rw [handOver_nil]
    exact .of_begin (hpage.tail rfl)
  | cons part todo ih =>
    intro pending st
    refine .of_begin ?_
    simp only [begin, beginSections]
    split
    · rename_i hdone
      rw [handOver_of_contains hdone]
      exact ih done pending st
    · rename_i hdone
      rw [handOver_cons hdone]
      cases part with
      | block part tree =>
        have htree := (performs_renderNodes henter f rfl tree "").nodes_empty
          (.sections part todo done body name :: pending) st
        rw [hmode] at htree
        exact htree.bind (fun _ _ => rfl) fun text t => ih _ pending t
      | value part expr => exact ih _ pending st

theorem performs_renderRoot (root : Root) :
    r.Performs (.root root) f (r.renderRoot enter layout f root) := by
  intro pending st
  have hf : { f with mode := .setAside } = f := by rw [← hmode]
  have hbody := (performs_renderNodes henter f rfl root.children "").nodes_empty
    (.body root :: pending) st
  rw [renderRoot, hf]
  rw [hmode] at hbody
  refine .of_begin (hbody.bind (fun _ _ => rfl) fun body t => ?_)
  simp only [resume]
  cases Node.firstLayout? root.children with
  | none => exact .refl
  | some name => exact performs_handOver henter hmode hlayout _ [] body name pending t

end Pages

theorem performs_renderPage (route : Route) (levels : Nat) (f : Frame) (name : String)
    (hlevels : levels = r.options.maxDepth - f.chain.length) :
    r.Performs (.page name) f (r.renderPage route levels f name) := by
  intro pending st
  refine .of_begin ?_
  have hload := note_load_eq_fetch r ⟨name, route, f⟩ name st
  rw [renderPage, ← bind_assoc, Render.bind_apply, hload]
  simp only [begin, beginPage, Frame.store]
  rcases r.fetch name st.cache with ⟨e | parsed, cache⟩
  · exact .refl
  · let loaded : RenderState := ⟨st.context, cache, ⟨name, route, f⟩ :: st.requests⟩
    refine reaches_enter loaded hlevels fun rest _ hrest => ?_
    let inner : Frame := { f with chain := name :: f.chain, mode := .setAside }
    have hlayout : r.PerformsLayouts (r.renderPage .layout rest) inner :=
      fun sections view => performs_renderPage .layout rest _ view hrest
    exact performs_renderRoot (f := inner) (performsIncludes_renderInclude hrest) rfl hlayout
      parsed.root
termination_by levels

theorem performsLayouts_renderPage {levels : Nat}
    (h : levels = r.options.maxDepth - f.chain.length) :
    r.PerformsLayouts (r.renderPage .layout levels) f :=
  fun _ name => performs_renderPage .layout levels _ name h

/-! ## Every run ends -/

/-- Whatever is called, the machine does with it what some render does. -/
theorem exists_performs (r : Renderer) (c : Call) (s : Store) :
    ∃ mode act, r.Performs c (s.frame mode) act := by
  let levels := r.options.maxDepth - s.stack.length
  have henter : r.PerformsIncludes (r.renderInclude levels) s.stack.length :=
    performsIncludes_renderInclude rfl
  have hlayout : r.PerformsLayouts (r.renderPage .layout levels) (s.frame .setAside) :=
    performsLayouts_renderPage rfl
  cases c with
  | page name => exact ⟨.setAside, _, performs_renderPage .entry levels _ name rfl⟩
  | root root => exact ⟨.setAside, _, performs_renderRoot henter rfl hlayout root⟩
  | sections todo done body layout =>
    exact ⟨.setAside, _, performs_handOver henter rfl hlayout todo done body layout⟩
  | inclusion name => exact ⟨.inPlace, _, performs_renderInclude levels _ name rfl⟩
  | nodes mode todo out =>
    exact ⟨mode, _, performs_renderNodes henter (s.frame mode) rfl todo out⟩
  | node mode n => exact ⟨mode, _, performs_renderNode henter (s.frame mode) rfl n⟩
  | turns mode key item body todo out =>
    have hbody := (performs_renderNodes henter (s.frame mode) rfl body "").nodes_empty
    exact ⟨mode, _, performs_turns hbody todo out⟩

/-- Every call ends, with a text or an error, and the stack and the sections are as they were. What
is pending has no part in it. -/
theorem exists_reaches_give (r : Renderer) (c : Call) (s : Store) :
    ∃ result t, t.stack = s.stack ∧ t.sections = s.sections ∧
      ∀ pending, r.Reaches (call c pending s) (give result pending t) := by
  obtain ⟨mode, act, hact⟩ := exists_performs r c s
  obtain ⟨st, hst⟩ := s.exists_eq mode
  exact ⟨_, (s.frame mode).store _, rfl, rfl, fun pending => hst ▸ hact pending st⟩

def Next (r : Renderer) (m' m : Machine) : Prop :=
  r.next? m = some m'

theorem acc_of_reaches (h : r.Reaches m m') (hm : Acc r.Next m') : Acc r.Next m := by
  induction h using Relation.ReflTransGen.head_induction_on with
  | refl => exact hm
  | head hstep _ ih =>
    refine ⟨_, fun after hafter => ?_⟩
    obtain rfl := Option.some.inj (hstep.symm.trans hafter)
    exact ih

/-- What is pending either hands on a result or makes a call. -/
theorem resume_cases (k : Pending) (result : Except RenderError String) (pending : List Pending)
    (s : Store) :
    (∃ result' t, resume k result pending s = give result' pending t) ∨
      ∃ c t, resume k result pending s = call c pending t := by
  cases k with
  | leave name => exact .inl ⟨_, _, rfl⟩
  | scope ctx oneLine => exact .inl ⟨_, _, rfl⟩
  | layout ctx sections => exact .inl ⟨_, _, rfl⟩
  | body root =>
    cases result with
    | error e => exact .inl ⟨_, _, rfl⟩
    | ok text =>
      simp only [resume]
      cases Node.firstLayout? root.children with
      | none => exact .inl ⟨_, _, rfl⟩
      | some layout => exact .inr ⟨_, _, rfl⟩
  | sections name todo done body layout =>
    cases result with
    | error e => exact .inl ⟨_, _, rfl⟩
    | ok text => exact .inr ⟨_, _, rfl⟩
  | nodes mode todo out =>
    cases result with
    | error e => exact .inl ⟨_, _, rfl⟩
    | ok text => exact .inr ⟨_, _, rfl⟩
  | turns mode key item body todo out =>
    cases result with
    | error e => exact .inl ⟨_, _, rfl⟩
    | ok text => exact .inr ⟨_, _, rfl⟩

/-- A call has an end as soon as what is pending has one, with whatever result. -/
theorem acc_call (h : ∀ result s, Acc r.Next (give result pending s)) (c : Call) (s : Store) :
    Acc r.Next (call c pending s) := by
  obtain ⟨result, t, -, -, hreaches⟩ := exists_reaches_give r c s
  exact acc_of_reaches (hreaches pending) (h result t)

theorem acc_give (r : Renderer) (pending : List Pending) :
    ∀ result s, Acc r.Next (give result pending s) := by
  -- A call that is made on the way ends with the same still pending, so it is no way round.
  induction pending with
  | nil => exact fun result s => ⟨_, fun after hafter => by cases hafter⟩
  | cons k pending ih =>
    intro result s
    have hnext : r.Reaches (give result (k :: pending) s) (resume k result pending s) := .single rfl
    rcases resume_cases k result pending s with ⟨result', t, h⟩ | ⟨c, t, h⟩
    · exact acc_of_reaches hnext (h ▸ ih result' t)
    · exact acc_of_reaches hnext (h ▸ acc_call ih c t)

theorem wellFounded_next (r : Renderer) : WellFounded r.Next := by
  refine ⟨fun m => ?_⟩
  obtain ⟨control, pending, s⟩ := m
  cases control with
  | call c => exact acc_call (acc_give r pending) c s
  | result result => exact acc_give r pending result s

/-- Where the machine begins with an entry it does what the render does. -/
theorem reaches_render (r : Renderer) (entry : Entry) (ctx : Context) (cache : Cache) :
    r.Reaches (r.start entry ctx cache)
      (ended [] Frame.outermost (r.render entry ⟨ctx, cache, []⟩)) := by
  cases entry with
  | view name =>
    exact performs_renderPage .entry r.options.maxDepth Frame.outermost name rfl [] ⟨ctx, cache, []⟩
  | source text =>
    rw [render, renderSource, start]
    cases r.check inlineName (parseTemplate r.options.markers text) with
    | error e => exact .refl
    | ok parsed =>
      have hlevels : r.options.maxDepth = r.options.maxDepth - Frame.outermost.chain.length := rfl
      exact performs_renderRoot (performsIncludes_renderInclude hlevels) rfl
        (performsLayouts_renderPage hlevels) parsed.root [] ⟨ctx, cache, []⟩

theorem reaches_run (r : Renderer) (steps : Nat) (m : Machine) : r.Reaches m (r.run steps m) := by
  induction steps generalizing m with
  | zero => exact .refl
  | succ steps ih =>
    rw [run]
    cases hnext : r.next? m with
    | none => exact .refl
    | some m' => exact .head hnext (ih m')

theorem run_of_next?_eq_none (h : r.next? m = none) (steps : Nat) : r.run steps m = m := by
  cases steps with
  | zero => rfl
  | succ steps => rw [run, h]

theorem exists_run_eq (h : r.Reaches m m') (hend : r.next? m' = none) :
    ∃ enough, ∀ more, r.run (enough + more) m = m' := by
  induction h using Relation.ReflTransGen.head_induction_on with
  | refl => exact ⟨0, fun more => run_of_next?_eq_none hend (0 + more)⟩
  | head hstep _ ih =>
    obtain ⟨enough, henough⟩ := ih
    refine ⟨enough + 1, fun more => ?_⟩
    rw [Nat.add_right_comm, run, hstep]
    exact henough more

/-- Rendering ends, whatever views there are and however they refer to each other. Nothing bounds
the steps of the machine beforehand, and yet it has no endless run, wherever it goes on from. With
enough steps the run for an entry comes to its end, and there it has what the render gives: the text
or the error, the context, the parsed views and the requests. -/
theorem render_ends (r : Renderer) :
    (WellFounded fun m' m => r.next? m = some m') ∧
      ∀ entry ctx cache,
        let o := Engine.render ⟨r, cache⟩ entry ctx
        let last := give o.result []
          ⟨o.context, o.engine.cache, [], [], o.requests.map Request.asked⟩
        r.next? last = none ∧
          ∃ enough, ∀ more, r.run (enough + more) (r.start entry ctx cache) = last :=
  ⟨wellFounded_next r, fun entry ctx cache =>
    ⟨rfl, exists_run_eq (reaches_render r entry ctx cache) rfl⟩⟩

end Renderer

end Templating
