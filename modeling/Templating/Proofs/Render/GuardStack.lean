import Templating.Proofs.Render.Run
import Templating.Proofs.Render.Strictness

/-!
# The stack of a render

The stack is changed where a view is entered and where it has ended, which are far apart: between
them any number of calls go on, and any of them may fail. That it still is the list of the views in
progress comes from what is pending, where the end of a view stays until it is due
(`Engine.InOrder`). With each pending step goes the tree that it belongs to, so that the view that is
entered next is known to be asked for by the one on top.
-/

namespace Templating

namespace Node

mutual

def includesOf : Node → List Expr
  | .includeView view _ => [view]
  | .conditional _ consequent none _ => includes consequent
  | .conditional _ consequent (some alternate) _ => includes consequent ++ includes alternate
  | .loop _ _ _ body _ => includes body
  | .errorBlock _ body _ _ => includes body
  | .sectionBlock _ body _ => includes body
  | _ => []

def includes : List Node → List Expr
  | [] => []
  | n :: ns => includesOf n ++ includes ns

end

mutual

theorem includes_subset_of_mem_ofNode {name : String} {body : List Node} :
    ∀ n : Node, Section.block name body ∈ Section.ofNode n → includes body ⊆ includesOf n
  | .text _ _, h => by simp [Section.ofNode] at h
  | .interpolation _ _ _, h => by simp [Section.ofNode] at h
  | .conditional _ consequent none _, h => by
    rw [includesOf]
    exact includes_subset_of_mem_ofNodes consequent (by simpa [Section.ofNode] using h)
  | .conditional _ consequent (some alternate) _, h => by
    rw [Section.ofNode, List.mem_append] at h
    rw [includesOf]
    rcases h with h | h
    · exact List.subset_append_of_subset_left _ (includes_subset_of_mem_ofNodes consequent h)
    · exact List.subset_append_of_subset_right _ (includes_subset_of_mem_ofNodes alternate h)
  | .loop _ _ _ inner _, h => by
    rw [includesOf]
    exact includes_subset_of_mem_ofNodes inner (by simpa [Section.ofNode] using h)
  | .includeView _ _, h => by simp [Section.ofNode] at h
  | .errorBlock _ inner _ _, h => by
    rw [includesOf]
    exact includes_subset_of_mem_ofNodes inner (by simpa [Section.ofNode] using h)
  | .yieldSection _ _ _, h => by simp [Section.ofNode] at h
  | .sectionBlock _ inner _, h => by
    rw [Section.ofNode, List.mem_cons] at h
    rw [includesOf]
    rcases h with h | h
    · obtain ⟨-, rfl⟩ := Section.block.inj h
      exact List.Subset.refl _
    · exact includes_subset_of_mem_ofNodes inner h
  | .sectionValue _ _ _, h => by simp [Section.ofNode] at h
  | .extendsLayout _ _, h => by simp [Section.ofNode] at h
  | .csrf _, h => by simp [Section.ofNode] at h
  | .asset _ _ _, h => by simp [Section.ofNode] at h

theorem includes_subset_of_mem_ofNodes {name : String} {body : List Node} :
    ∀ ns : List Node, Section.block name body ∈ Section.ofNodes ns → includes body ⊆ includes ns
  | [], h => by simp [Section.ofNodes] at h
  | n :: ns, h => by
    rw [Section.ofNodes, List.mem_append] at h
    rw [includes]
    rcases h with h | h
    · exact List.subset_append_of_subset_left _ (includes_subset_of_mem_ofNode n h)
    · exact List.subset_append_of_subset_right _ (includes_subset_of_mem_ofNodes ns h)

end

end Node

def Pending.entered? : Pending → Option String
  | .leave name => some name
  | _ => none

def Machine.inProgress (m : Machine) : List String :=
  m.pending.filterMap Pending.entered?

namespace Engine

/-- The tree asks for the view: it includes it, under a name that some context gives, or extends
it. -/
def Asks (e : Engine) (ns : List Node) (view : String) : Prop :=
  (∃ expr ∈ Node.includes ns, ∃ c, e.renderer.evaluator.output c expr = view) ∨
    Node.firstLayout? ns = some view

/-- The tree that is rendered when these views are in progress. -/
def treeAt (e : Engine) (entry : Entry) : List String → List Node
  | view :: _ => e.tree view
  | [] =>
    match entry with
    | .view _ => []
    | .source text => (parseTemplate e.renderer.options.markers text).root.children

/-- The view may be next when these are in progress: it is the one that the render is asked for, or
the tree that is rendered asks for it. -/
def Admits (e : Engine) (entry : Entry) (stack : List String) (view : String) : Prop :=
  stack = [] ∧ entry = .view view ∨ e.Asks (e.treeAt entry stack) view

/-- Every view was admitted by those that had been entered before it. -/
def Linked (e : Engine) (entry : Entry) : List String → Prop
  | [] => True
  | view :: outer => e.Admits entry outer view ∧ Linked e entry outer

/-- No view is there twice, there are no more than the limit allows, and each is included or extended
by the one before it. -/
structure Guarded (e : Engine) (entry : Entry) (stack : List String) : Prop where
  nodup : stack.Nodup
  length_le : stack.length ≤ e.renderer.options.maxDepth
  linked : e.Linked entry stack

/-- What is pending belongs to the rendering of the tree; the end of a view belongs to none. -/
inductive Belongs (ns : List Node) : Pending → Prop where
  | scope {ctx oneLine} : Belongs ns (.scope ctx oneLine)
  | layout {ctx sections} : Belongs ns (.layout ctx sections)
  | body {root : Root} (h : root.children = ns) : Belongs ns (.body root)
  | sections {name todo done body layout}
      (htodo : ∀ name body, .block name body ∈ todo → Node.includes body ⊆ Node.includes ns)
      (hlayout : Node.firstLayout? ns = some layout) :
      Belongs ns (.sections name todo done body layout)
  | nodes {mode todo out} (h : Node.includes todo ⊆ Node.includes ns) :
      Belongs ns (.nodes mode todo out)
  | turns {mode key item body todo out} (h : Node.includes body ⊆ Node.includes ns) :
      Belongs ns (.turns mode key item body todo out)

/-- The tree that is rendered when these views are in progress makes the call. -/
inductive Makes (e : Engine) (entry : Entry) (stack : List String) : Call → Prop where
  | page {name} (h : e.Admits entry stack name) : Makes e entry stack (.page name)
  | inclusion {name} (h : e.Admits entry stack name) : Makes e entry stack (.inclusion name)
  | root {root : Root} (h : root.children = e.treeAt entry stack) : Makes e entry stack (.root root)
  | sections {todo done body layout}
      (htodo : ∀ name body, .block name body ∈ todo →
        Node.includes body ⊆ Node.includes (e.treeAt entry stack))
      (hlayout : Node.firstLayout? (e.treeAt entry stack) = some layout) :
      Makes e entry stack (.sections todo done body layout)
  | nodes {mode todo out} (h : Node.includes todo ⊆ Node.includes (e.treeAt entry stack)) :
      Makes e entry stack (.nodes mode todo out)
  | node {mode n} (h : Node.includesOf n ⊆ Node.includes (e.treeAt entry stack)) :
      Makes e entry stack (.node mode n)
  | turns {mode key item body todo out}
      (h : Node.includes body ⊆ Node.includes (e.treeAt entry stack)) :
      Makes e entry stack (.turns mode key item body todo out)

/-- What is pending goes with the stack: each view was entered over those that are further out, and
what else is pending belongs to the tree of the view it stands in. -/
inductive InOrder (e : Engine) (entry : Entry) : List Pending → List String → Prop where
  | nil : InOrder e entry [] []
  | leave {pending outer name} (h : InOrder e entry pending outer) (hname : name ∉ outer)
      (hdepth : outer.length < e.renderer.options.maxDepth) (hadmits : e.Admits entry outer name) :
      InOrder e entry (.leave name :: pending) (name :: outer)
  | inside {pending stack k} (h : InOrder e entry pending stack)
      (hk : Belongs (e.treeAt entry stack) k) : InOrder e entry (k :: pending) stack

variable {e : Engine} {entry : Entry} {pending : List Pending} {stack : List String}

theorem InOrder.guarded (h : e.InOrder entry pending stack) : e.Guarded entry stack := by
  induction h with
  | nil => exact ⟨List.nodup_nil, Nat.zero_le _, trivial⟩
  | leave _ hname hdepth hadmits ih =>
    exact ⟨List.nodup_cons.2 ⟨hname, ih.nodup⟩, hdepth, hadmits, ih.linked⟩
  | inside _ _ ih => exact ih

/-- The views on the stack are those whose end is pending. -/
theorem InOrder.eq_filterMap (h : e.InOrder entry pending stack) :
    stack = pending.filterMap Pending.entered? := by
  induction h with
  | nil => rfl
  | leave _ _ _ _ ih => exact congrArg (List.cons _) ih
  | inside _ hk ih => cases hk <;> exact ih

/-- What is pending goes with the stack, every view is still parsed to what the engine began with,
and the views asked for so far were admitted by the stack of their time. -/
structure Sound (e : Engine) (entry : Entry) (pending : List Pending) (stack : List String)
    (cache : Cache) (asked : List Asked) : Prop where
  order : e.InOrder entry pending stack
  kept : e.Kept cache
  asked : ∀ a ∈ asked, e.Guarded entry a.stack ∧ e.Admits entry a.stack a.view

structure Ordered (e : Engine) (entry : Entry) (m : Machine) : Prop where
  sound : e.Sound entry m.pending m.store.stack m.store.cache m.store.asked
  control : ∀ c, m.control = .call c → e.Makes entry m.store.stack c

namespace Sound

variable {s : Store} {c : Call} {k : Pending} {name : String}

theorem give (h : e.Sound entry pending s.stack s.cache s.asked)
    (result : Except RenderError String) : e.Ordered entry (Machine.give result pending s) where
  sound := h
  control := fun _ hc => by cases hc

theorem call (h : e.Sound entry pending s.stack s.cache s.asked) (hc : e.Makes entry s.stack c) :
    e.Ordered entry (Machine.call c pending s) where
  sound := h
  control := by
    rintro _ ⟨⟩
    exact hc

theorem push {cache : Cache} {asked : List Asked} (h : e.Sound entry pending stack cache asked)
    (hk : Belongs (e.treeAt entry stack) k) : e.Sound entry (k :: pending) stack cache asked :=
  ⟨.inside h.order hk, h.kept, h.asked⟩

/-- A view that is admitted is asked for and fetched; what is rendered in it is its tree. -/
theorem fetch (h : e.Sound entry pending s.stack s.cache s.asked)
    (hname : e.Admits entry s.stack name) :
    e.Sound entry pending s.stack (e.renderer.fetch name s.cache).2 (s.ask name).asked ∧
      ∀ parsed, (e.renderer.fetch name s.cache).1 = .ok parsed →
        parsed.root.children = e.tree name := by
  obtain ⟨hkept, hparsed⟩ := Kept.load (s := ⟨Context.empty, s.cache, []⟩) h.kept name
  refine ⟨⟨h.order, hkept, fun a ha => ?_⟩, fun parsed hfetch => ?_⟩
  · rcases List.mem_cons.1 ha with rfl | ha
    · exact ⟨h.order.guarded, hname⟩
    · exact h.asked a ha
  · rw [tree, hparsed parsed hfetch]

/-- Only a view that is not in progress is entered, and only below the limit. -/
theorem enter (h : e.Sound entry pending s.stack s.cache s.asked)
    (hname : e.Admits entry s.stack name) {inside : Call}
    (hinside : e.Makes entry (name :: s.stack) inside) :
    e.Ordered entry (e.renderer.enter name inside pending s) := by
  unfold Renderer.enter
  split
  · exact h.give _
  · rename_i hnot
    split
    · exact h.give _
    · rename_i hdepth
      have hinner : e.Sound entry (.leave name :: pending) (name :: s.stack) s.cache s.asked :=
        ⟨.leave h.order hnot (Nat.lt_of_not_le hdepth) hname, h.kept, h.asked⟩
      exact hinner.call hinside

theorem beginPage (h : e.Sound entry pending s.stack s.cache s.asked)
    (hname : e.Admits entry s.stack name) :
    e.Ordered entry (e.renderer.beginPage name pending s) := by
  obtain ⟨hsound, htree⟩ := h.fetch hname
  unfold Renderer.beginPage
  generalize e.renderer.fetch name s.cache = fetched at hsound htree ⊢
  rcases fetched with ⟨cause | parsed, cache⟩
  · exact hsound.give _
  · let loaded : Store := { s.ask name with cache := cache }
    exact Sound.enter (s := loaded) hsound hname (.root (htree parsed rfl))

theorem beginInclusion (h : e.Sound entry pending s.stack s.cache s.asked)
    (hname : e.Admits entry s.stack name) :
    e.Ordered entry (e.renderer.beginInclusion name pending s) := by
  obtain ⟨hsound, htree⟩ := h.fetch hname
  unfold Renderer.beginInclusion
  split
  · exact h.give _
  · generalize e.renderer.fetch name s.cache = fetched at hsound htree ⊢
    rcases fetched with ⟨cause | parsed, cache⟩
    · cases cause <;> exact hsound.give _
    · let loaded : Store := { s.ask name with cache := cache }
      have hinside : Node.includes parsed.root.children ⊆ Node.includes (e.tree name) :=
        htree parsed rfl ▸ List.Subset.refl _
      exact Sound.enter (s := loaded) hsound hname (.nodes hinside)

theorem beginSections (h : e.Sound entry pending s.stack s.cache s.asked) {todo : List Section}
    {layout : String}
    (htodo : ∀ name body, .block name body ∈ todo →
      Node.includes body ⊆ Node.includes (e.treeAt entry s.stack))
    (hlayout : Node.firstLayout? (e.treeAt entry s.stack) = some layout) (done : Entries String)
    (body : String) : e.Ordered entry (e.renderer.beginSections todo done body layout pending s) := by
  cases todo with
  | nil =>
    let handed := Renderer.handSections s.sections done body
    let inside : Store :=
      { s with context := Renderer.layoutContext s.context handed, sections := handed }
    exact Sound.call (s := inside) (h.push .layout) (.page (.inr (.inr hlayout)))
  | cons part todo =>
    have hrest : ∀ name body, .block name body ∈ todo →
        Node.includes body ⊆ Node.includes (e.treeAt entry s.stack) :=
      fun name body hpart => htodo name body (List.mem_cons_of_mem _ hpart)
    simp only [Renderer.beginSections]
    split
    · exact h.call (.sections hrest hlayout)
    · cases part with
      | block name tree =>
        exact (h.push (.sections hrest hlayout)).call (.nodes (htodo name tree List.mem_cons_self))
      | value name expr => exact h.call (.sections hrest hlayout)

theorem beginNode (h : e.Sound entry pending s.stack s.cache s.asked) (mode : SectionMode) (n : Node)
    (hn : Node.includesOf n ⊆ Node.includes (e.treeAt entry s.stack)) :
    e.Ordered entry (e.renderer.beginNode mode n pending s) := by
  cases n with
  | text content loc => exact h.give _
  | interpolation expr escape loc => exact h.give _
  | conditional condition consequent alternate loc =>
    unfold Renderer.beginNode
    cases alternate with
    | none =>
      rw [Node.includesOf] at hn
      dsimp only
      split
      · exact h.call (.nodes hn)
      · exact h.give _
    | some alternate =>
      rw [Node.includesOf] at hn
      dsimp only
      split
      · exact h.call (.nodes (List.append_subset.1 hn).1)
      · exact h.call (.nodes (List.append_subset.1 hn).2)
  | loop source key item body loc =>
    rw [Node.includesOf] at hn
    exact h.call (.turns hn)
  | includeView view loc =>
    rw [Node.includesOf] at hn
    have hasks : e.Asks (e.treeAt entry s.stack) (e.renderer.evaluator.output s.context view) :=
      .inl ⟨view, hn List.mem_cons_self, s.context, rfl⟩
    exact h.call (.inclusion (.inr hasks))
  | errorBlock field body oneLine loc =>
    rw [Node.includesOf] at hn
    unfold Renderer.beginNode
    dsimp only
    split
    · exact h.give _
    · rename_i message _
      let inside : Store := { s with context := s.context.bind "message" message }
      exact Sound.call (s := inside) (h.push .scope) (.nodes hn)
  | yieldSection name default loc => exact h.give _
  | sectionBlock name body loc =>
    rw [Node.includesOf] at hn
    cases mode with
    | setAside => exact h.give _
    | inPlace => exact h.call (.nodes hn)
  | sectionValue name expr loc => exact h.give _
  | extendsLayout layout loc => exact h.give _
  | csrf loc => exact h.give _
  | asset kind paths loc => exact h.give _

theorem begin (h : e.Sound entry pending s.stack s.cache s.asked) (hc : e.Makes entry s.stack c) :
    e.Ordered entry (e.renderer.begin c pending s) := by
  cases hc with
  | page hname => exact h.beginPage hname
  | inclusion hname => exact h.beginInclusion hname
  | @root root hroot =>
    have hbody : Node.includes root.children ⊆ Node.includes (e.treeAt entry s.stack) :=
      hroot ▸ List.Subset.refl _
    exact (h.push (.body hroot)).call (.nodes hbody)
  | @sections todo done body layout htodo hlayout => exact h.beginSections htodo hlayout done body
  | @nodes mode todo out hnodes =>
    cases todo with
    | nil => exact h.give _
    | cons n todo =>
      have hparts := List.append_subset.1 hnodes
      exact (h.push (.nodes hparts.2)).call (.node hparts.1)
  | @node mode n hn => exact h.beginNode mode n hn
  | @turns mode key item body todo out hbody =>
    cases todo with
    | nil => exact h.give _
    | cons turn todo =>
      let inside : Store := { s with context := s.context.bindTurn key item turn }
      exact Sound.call (s := inside) (h.push (.turns hbody)) (.nodes hbody)

theorem resume (h : e.Sound entry (k :: pending) s.stack s.cache s.asked)
    (result : Except RenderError String) : e.Ordered entry (Renderer.resume k result pending s) := by
  obtain ⟨horder, hkept, hasked⟩ := h
  generalize hstack : s.stack = stack at horder
  cases horder with
  | @leave _ outer name horder _ _ _ =>
    have houter : e.InOrder entry pending s.stack.tail := by rwa [hstack, List.tail_cons]
    exact Sound.give (s := { s with stack := s.stack.tail }) ⟨houter, hkept, hasked⟩ result
  | inside horder hk =>
    subst hstack
    have hrest : e.Sound entry pending s.stack s.cache s.asked := ⟨horder, hkept, hasked⟩
    cases hk with
    | @scope ctx oneLine => exact Sound.give (s := { s with context := ctx }) hrest _
    | @layout ctx sections =>
      exact Sound.give (s := { s with context := ctx, sections := sections }) hrest _
    | @body root hroot =>
      cases result with
      | error cause => exact hrest.give _
      | ok text =>
        unfold Renderer.resume
        cases hlayout : Node.firstLayout? root.children with
        | none => simpa only [hlayout] using hrest.give _
        | some layout =>
          simp only [hlayout]
          -- Sections are collected from the whole tree, so what they include stands in it too.
          refine hrest.call (.sections (fun name body hpart => ?_) (hroot ▸ hlayout))
          exact hroot ▸ Node.includes_subset_of_mem_ofNodes _ hpart
    | sections htodo hlayout =>
      cases result with
      | error cause => exact hrest.give _
      | ok text => exact hrest.call (.sections htodo hlayout)
    | nodes hnodes =>
      cases result with
      | error cause => exact hrest.give _
      | ok text => exact hrest.call (.nodes hnodes)
    | turns hbody =>
      cases result with
      | error cause => exact hrest.give _
      | ok text => exact hrest.call (.turns hbody)

end Sound

theorem Ordered.next {m m' : Machine} (h : e.Ordered entry m) (hm : e.renderer.next? m = some m') :
    e.Ordered entry m' := by
  obtain ⟨control, pending, s⟩ := m
  cases control with
  | call c =>
    cases hm
    exact h.sound.begin (h.control c rfl)
  | result result =>
    cases pending with
    | nil => cases hm
    | cons k pending =>
      cases hm
      exact h.sound.resume result

theorem ordered_start (e : Engine) (entry : Entry) (ctx : Context) :
    e.Ordered entry (e.renderer.start entry ctx e.cache) := by
  have hinitial : e.Sound entry [] [] e.cache [] :=
    ⟨.nil, fun _ _ _ => rfl, fun _ ha => by cases ha⟩
  cases entry with
  | view name =>
    exact Sound.call (s := .initial ctx e.cache) hinitial (.page (.inl ⟨rfl, rfl⟩))
  | source text =>
    rw [Renderer.start]
    cases hcheck : e.renderer.check Renderer.inlineName
      (parseTemplate e.renderer.options.markers text) with
    | error cause => exact Sound.give (s := .initial ctx e.cache) hinitial _
    | ok parsed =>
      obtain rfl := eq_of_check hcheck
      exact Sound.call (s := .initial ctx e.cache) hinitial (.root rfl)

/-- In every state of a render the machine is in order. -/
theorem ordered_of_reaches {ctx : Context} {m : Machine}
    (h : e.renderer.Reaches (e.renderer.start entry ctx e.cache) m) : e.Ordered entry m := by
  induction h with
  | refl => exact ordered_start e entry ctx
  | tail _ hstep ih => exact ih.next hstep

/-- In every state of a render the stack is the views in progress, none twice, no more than the limit
allows, and each included or extended by the one before it; the same holds of the frames from which
the render asks for views. And every call, of whatever kind and whether it gives a text or an error,
leaves the stack and the sections as they were, so views beside each other do not see that the others
were entered, nor a view the sections of its layout. -/
theorem guard_stack_invariant (e : Engine) (entry : Entry) (ctx : Context) :
    (∀ m, e.renderer.Reaches (e.renderer.start entry ctx e.cache) m →
      e.Guarded entry m.store.stack ∧ m.store.stack = m.inProgress) ∧
    (∀ q ∈ (e.render entry ctx).requests,
      e.Guarded entry q.frame.chain ∧ e.Admits entry q.frame.chain q.view) ∧
    ∀ c s, ∃ result t, t.stack = s.stack ∧ t.sections = s.sections ∧
      ∀ pending, e.renderer.Reaches (.call c pending s) (.give result pending t) := by
  refine ⟨fun m hm => ?_, fun q hq => ?_, Renderer.exists_reaches_give e.renderer⟩
  · have horder := (ordered_of_reaches hm).sound.order
    exact ⟨horder.guarded, horder.eq_filterMap⟩
  · have hend := ordered_of_reaches (e.renderer.reaches_render entry ctx e.cache)
    exact hend.sound.asked q.asked (List.mem_map_of_mem hq)

/-- The second time round the loop of `list`, inside the view that it includes. -/
def secondItem : Machine :=
  listRenderer.run 30 (listRenderer.start (.view "list") Context.empty [])

theorem stack_secondItem : secondItem.store.stack = ["item", "list"] := by cbv

theorem views_list :
    ((new listRenderer).render (.view "list") Context.empty).requests.map (·.view) =
      ["item", "item", "list"] := by cbv

theorem guard_stack_invariant_list :
    let e := new listRenderer
    let o := e.render (.view "list") Context.empty
    (listRenderer.Reaches (listRenderer.start (.view "list") Context.empty []) secondItem ∧
      e.Guarded (.view "list") ["item", "list"] ∧ ["item", "list"] = secondItem.inProgress) ∧
    ∃ q ∈ o.requests, q.view = "item" ∧ e.Guarded (.view "list") q.frame.chain ∧
      e.Admits (.view "list") q.frame.chain "item" := by
  intro e o
  have hreaches := listRenderer.reaches_run 30 (listRenderer.start (.view "list") Context.empty [])
  obtain ⟨hstack, hrequests, -⟩ := guard_stack_invariant e (.view "list") Context.empty
  have hmem : "item" ∈ o.requests.map (·.view) := by
    rw [views_list]
    exact List.mem_cons_self
  obtain ⟨q, hq, hname⟩ := List.mem_map.1 hmem
  exact ⟨⟨hreaches, stack_secondItem ▸ hstack secondItem hreaches⟩, q, hq, hname,
    hname ▸ hrequests q hq⟩

end Engine

end Templating
