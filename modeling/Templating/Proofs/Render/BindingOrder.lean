import Mathlib
import Templating.Proofs.Render.Sections

/-!
# The order of bindings

A render looks names up in its context and binds names there, and does nothing else with it. So two
contexts that hold the same bindings, in whatever order, lead to the same text or error and hold the
same bindings afterwards (`render_eq_of_sameBindings`).

When a page extends a layout, its sections are bound in the context of the layout one after the
other. In which order is left open here: a `SectionOrder` says how they are arranged, each time anew,
and the render that follows it (`Renderer.renderIn`) comes to the same.
-/

namespace Templating

namespace Context

/-- Two contexts hold the same names with the same values; the names may come in another order. -/
structure SameBindings (c c' : Context) : Prop where
  names : c.names.Perm c'.names
  find?_eq : ∀ name, c.find? name = c'.find? name

/-- Where every name stands once, to hold the same bindings is to have the same entries in some
order. -/
theorem sameBindings_iff_perm {c c' : Context} (h : c.names.Nodup) :
    c.SameBindings c' ↔ c.bindings.Perm c'.bindings := by
  constructor
  · intro hsame
    have hnames' : c'.names.Nodup := hsame.names.nodup h
    refine (List.perm_ext_iff_of_nodup (h.of_map _) (hnames'.of_map _)).2 ?_
    rintro ⟨name, value⟩
    rw [Entries.mem_iff_find?_eq_some h, Entries.mem_iff_find?_eq_some hnames']
    exact iff_of_eq (congrArg (· = some value) (hsame.find?_eq name))
  · intro hperm
    have hnames : c.names.Perm c'.names := hperm.map _
    refine ⟨hnames, fun name => Option.ext fun value => ?_⟩
    have hmem : (name, value) ∈ c.bindings ↔ (name, value) ∈ c'.bindings := hperm.mem_iff
    rwa [Entries.mem_iff_find?_eq_some h, Entries.mem_iff_find?_eq_some (hnames.nodup h)] at hmem

namespace SameBindings

variable {c c' c'' : Context}

theorem refl (c : Context) : c.SameBindings c :=
  ⟨.refl _, fun _ => rfl⟩

theorem trans (h : c.SameBindings c') (h' : c'.SameBindings c'') : c.SameBindings c'' :=
  ⟨h.names.trans h'.names, fun name => (h.find?_eq name).trans (h'.find?_eq name)⟩

theorem bind (h : c.SameBindings c') (name : String) (value : Value) :
    (c.bind name value).SameBindings (c'.bind name value) where
  names := by
    rw [names_bind, names_bind]
    by_cases hmem : name ∈ c.names
    · rw [if_pos hmem, if_pos (h.names.mem_iff.1 hmem)]
      exact h.names
    · rw [if_neg hmem, if_neg fun hmem' => hmem (h.names.mem_iff.2 hmem')]
      exact h.names.append_right _
  find?_eq := fun other => by rw [find?_bind, find?_bind, h.find?_eq]

theorem bind_swap (c : Context) {name other : String} (h : name ≠ other) (value value' : Value) :
    ((c.bind name value).bind other value').SameBindings
      ((c.bind other value').bind name value) where
  names := by
    have hswap : (c.names ++ [name] ++ [other]).Perm (c.names ++ [other] ++ [name]) := by
      rw [List.append_assoc, List.append_assoc]
      exact (List.Perm.swap other name []).append_left _
    by_cases hname : name ∈ c.names <;> by_cases hother : other ∈ c.names <;>
      simp [names_bind, hname, hother, h, h.symm]
    simpa using hswap
  find?_eq := fun wanted => by
    simp only [find?_bind]
    by_cases hname : wanted = name
    · subst hname
      simp [h]
    · simp [hname]

end SameBindings

end Context

def Resemblance.sameBindings : Resemblance where
  rel := Context.SameBindings
  refl := .refl
  find?_eq := fun h => h.find?_eq
  bind_bind := fun h => h.bind

/-- Sections with different names may be bound in any order. -/
theorem Context.SameBindings.layoutContext {c c' : Context} {sections sections' : Entries String}
    (h : c.SameBindings c') (hperm : sections.Perm sections')
    (hnames : (Entries.names sections).Nodup) :
    (Renderer.layoutContext c sections).SameBindings (Renderer.layoutContext c' sections') := by
  induction hperm generalizing c c' with
  | nil => exact h
  | cons entry _ ih => exact ih (h.bind _ _) (List.nodup_cons.1 hnames).2
  | swap entry entry' sections =>
    have hne : entry'.1 ≠ entry.1 := (List.pairwise_cons.1 hnames).1 _ List.mem_cons_self
    have hfirst := (bind_swap c hne (.text entry'.2) (.text entry.2)).trans
      ((h.bind entry.1 (.text entry.2)).bind entry'.1 (.text entry'.2))
    exact Resemblance.sameBindings.layoutContext hfirst sections
  | trans hfirst _ ih ih' =>
    exact (ih (.refl c) hnames).trans (ih' h ((hfirst.map _).nodup hnames))

/-! ## Sections in any order -/

/-- How the sections of a page are arranged when they are bound in the context of its layout. It may
be another way each time, for it may depend on all that a render has done so far. -/
structure SectionOrder where
  arrange : RenderState → Entries String → Entries String
  perm : ∀ s sections, (arrange s sections).Perm sections

def SectionOrder.written : SectionOrder :=
  ⟨fun _ sections => sections, fun _ _ => .refl _⟩

theorem SectionOrder.layoutContext (order order' : SectionOrder) {s s' : RenderState}
    (h : s.context.SameBindings s'.context) {sections : Entries String}
    (hnames : (Entries.names sections).Nodup) :
    (Renderer.layoutContext s.context (order.arrange s sections)).SameBindings
      (Renderer.layoutContext s'.context (order'.arrange s' sections)) := by
  have harranged : (Entries.names (order.arrange s sections)).Nodup :=
    ((order.perm s sections).map _).symm.nodup hnames
  exact h.layoutContext ((order.perm s sections).trans (order'.perm s' sections).symm) harranged

namespace Renderer

def renderRootIn (r : Renderer) (order : SectionOrder) (enter layout : Enter) (f : Frame)
    (root : Root) : Render String := do
  let f := { f with mode := .setAside }
  let body ← r.renderNodes enter f root.children
  match Node.firstLayout? root.children with
  | none => return body
  | some name =>
    let own ← r.renderSections enter f [] (Section.ofNodes root.children)
    let sections := handSections f.sections own body
    let s ← get
    Render.detached (layoutContext s.context (order.arrange s sections))
      (layout { f.detach with sections := sections } name)

def renderPageIn (r : Renderer) (order : SectionOrder) (route : Route) (levels : Nat) : Enter :=
  fun f name => do
    Render.note ⟨name, route, f⟩
    let parsed ← r.load name
    let inner ← enterFrame f name
    match levels with
    | 0 => throw (.depthExceeded r.options.maxDepth)
    | levels + 1 =>
      r.renderRootIn order (r.renderInclude levels) (renderPageIn r order .layout levels) inner
        parsed.root

/-- A render in which the sections are bound in a given order. -/
def renderIn (r : Renderer) (order : SectionOrder) : Entry → Render String
  | .view name => r.renderPageIn order .entry r.options.maxDepth Frame.outermost name
  | .source source => do
    let parsed ← r.check inlineName (parseTemplate r.options.markers source)
    r.renderRootIn order (r.renderInclude r.options.maxDepth)
      (r.renderPageIn order .layout r.options.maxDepth) Frame.outermost parsed.root

variable (r : Renderer)

theorem renderPageIn_written (route : Route) (levels : Nat) :
    r.renderPageIn .written route levels = r.renderPage route levels := by
  induction levels generalizing route with
  | zero =>
    funext f name
    rw [renderPageIn, renderPage]
  | succ levels ih =>
    funext f name
    rw [renderPageIn, renderPage]
    simp only [ih]
    rfl

theorem renderIn_written (entry : Entry) : r.renderIn .written entry = r.render entry := by
  cases entry with
  | view name => rw [renderIn, renderPageIn_written, render, renderView]
  | source source =>
    rw [renderIn, renderPageIn_written, render, renderSource]
    rfl

end Renderer

def Engine.renderIn (e : Engine) (order : SectionOrder) (entry : Entry) (ctx : Context) : Outcome :=
  e.run (·.renderIn order entry) ctx

theorem Engine.renderIn_written (e : Engine) (entry : Entry) (ctx : Context) :
    e.renderIn .written entry ctx = e.render entry ctx := by
  simp only [renderIn, render, Renderer.renderIn_written]

/-! ## Two renders -/

/-- Two renders by the renderer of an engine that have recorded the same, in contexts with the same
bindings. Neither is ever off. -/
def bindingsLink (e : Engine) : Link e.renderer e.renderer where
  contexts := .sameBindings
  records := Eq
  off := fun _ _ => False
  off_error := fun h _ => h

namespace bindingsLink

variable {e : Engine} {α : Type}

theorem tracks_iff {act act' : Render α} :
    (bindingsLink e).Tracks act act' ↔ ∀ s s', (bindingsLink e).Holds s s' →
      (act s).1 = (act' s').1 ∧ (bindingsLink e).Holds (act s).2 (act' s').2 :=
  ⟨fun h s s' hs => (h.agree s s' hs).resolve_left id,
    fun h => ⟨fun _ hoff => hoff, fun s s' hs => .inr (h s s' hs)⟩⟩

theorem tracks_note (q : Request) :
    (bindingsLink e).Tracks (Render.note q) (Render.note q) :=
  tracks_iff.2 fun s s' hs => by
    obtain ⟨hcache, hrequests⟩ := Prod.mk.inj hs.records
    exact ⟨rfl, hs.contexts, Prod.ext hcache (congrArg (q :: ·) hrequests)⟩

theorem tracks_load (name : String) :
    (bindingsLink e).Tracks (e.renderer.load name) (e.renderer.load name) :=
  tracks_iff.2 fun ⟨c, cache, requests⟩ ⟨c', cache', requests'⟩ ⟨hc, hrecords⟩ => by
    obtain ⟨rfl, rfl⟩ : cache = cache' ∧ requests = requests' := Prod.mk.inj hrecords
    simp only [Renderer.load]
    split
    · exact ⟨rfl, hc, rfl⟩
    · exact ⟨rfl, hc, rfl⟩

theorem loading (e : Engine) : (bindingsLink e).Loading :=
  .of_outer_eq_nil rfl (fun q => (tracks_note q).bind fun _ => tracks_load q.view) id

@[simp] theorem outer_eq : (bindingsLink e).outer = [] := rfl

theorem tracks_renderInclude (levels : Nat) (f : Frame) (name : String) :
    (bindingsLink e).Tracks (e.renderer.renderInclude levels f name)
      (e.renderer.renderInclude levels f name) := by
  have hlevels : (bindingsLink e).Levels levels levels := .inl ⟨rfl, rfl⟩
  simpa using (loading e).tracks_renderInclude levels levels hlevels f name

section Trees

variable {enter : Enter}
  (henter : ∀ f name, (bindingsLink e).Tracks (enter f name) (enter f name)) (f : Frame)

include henter

theorem tracks_renderNodes (ns : List Node) :
    (bindingsLink e).Tracks (e.renderer.renderNodes enter f ns)
      (e.renderer.renderNodes enter f ns) := by
  simpa using Link.tracks_renderNodes (L := bindingsLink e) (by simpa using henter) f ns

theorem tracks_renderSection (part : Section) :
    (bindingsLink e).Tracks (e.renderer.renderSection enter f part)
      (e.renderer.renderSection enter f part) := by
  simpa using Link.tracks_renderSection (L := bindingsLink e) (by simpa using henter) f part

end Trees

theorem tracks_mapM {β : Type} {act : α → Render β}
    (h : ∀ a, (bindingsLink e).Tracks (act a) (act a)) (as : List α) :
    (bindingsLink e).Tracks (as.mapM act) (as.mapM act) := by
  induction as with
  | nil => exact .pure _
  | cons a as ih =>
    rw [List.mapM_cons]
    exact (h a).bind fun _ => ih.bind fun _ => .pure _

variable (order order' : SectionOrder)

/-- A page hands its layout the same bindings, however its sections are arranged. -/
theorem tracks_renderRootIn {enter layout layout' : Enter}
    (henter : ∀ f name, (bindingsLink e).Tracks (enter f name) (enter f name))
    (hlayout : ∀ f name, (bindingsLink e).Tracks (layout f name) (layout' f name)) (f : Frame)
    (root : Root) :
    (bindingsLink e).Tracks (e.renderer.renderRootIn order enter layout f root)
      (e.renderer.renderRootIn order' enter layout' f root) := by
  rw [Renderer.renderRootIn, Renderer.renderRootIn]
  refine (tracks_renderNodes henter _ _).bind fun body => ?_
  split
  · exact .pure _
  · rw [Renderer.renderSections_eq]
    simp only [bind_assoc, pure_bind]
    refine .bind (tracks_mapM (tracks_renderSection henter _) _) fun texts => ?_
    have hown := (Section.nodup_names_firsts [] (Section.ofNodes root.children)).sublist
      (Entries.names_zip_sublist _ texts)
    have hnames : (Entries.names (Renderer.handSections f.sections _ body)).Nodup :=
      Renderer.nodup_names_handSections hown
    refine tracks_iff.2 fun s s' hs => ?_
    have hctx := order.layoutContext order' hs.contexts hnames
    exact tracks_iff.1 (.detached hctx (hlayout _ _)) s s' hs

theorem tracks_renderPageIn (route : Route) (levels : Nat) (f : Frame) (name : String) :
    (bindingsLink e).Tracks (e.renderer.renderPageIn order route levels f name)
      (e.renderer.renderPageIn order' route levels f name) := by
  induction levels generalizing route f name with
  | zero =>
    rw [Renderer.renderPageIn, Renderer.renderPageIn]
    refine (tracks_note _).bind fun _ => (tracks_load name).bind fun parsed => ?_
    exact (Link.Tracks.lift _).bind fun inner => .throw _
  | succ levels ih =>
    rw [Renderer.renderPageIn, Renderer.renderPageIn]
    refine (tracks_note _).bind fun _ => (tracks_load name).bind fun parsed => ?_
    refine (Link.Tracks.lift _).bind fun inner => ?_
    exact tracks_renderRootIn order order' (tracks_renderInclude levels) (ih .layout) _ _

theorem tracks_renderIn (entry : Entry) :
    (bindingsLink e).Tracks (e.renderer.renderIn order entry) (e.renderer.renderIn order' entry) := by
  cases entry with
  | view name => exact tracks_renderPageIn order order' _ _ _ _
  | source source =>
    refine (Link.Tracks.lift _).bind fun parsed => ?_
    exact tracks_renderRootIn order order' (tracks_renderInclude _)
      (tracks_renderPageIn order order' .layout _) _ _

end bindingsLink

/-- Rendering sees a context only through its bindings. In contexts that hold the same names with the
same values, every render gives the same text or the same error, and leaves contexts that again hold
the same bindings; and it does so too when it binds the sections of pages in any other order. -/
theorem render_eq_of_sameBindings (e : Engine) (entry : Entry) {ctx ctx' : Context}
    (h : ctx.SameBindings ctx') (order : SectionOrder) :
    let o := e.render entry ctx
    let other := e.render entry ctx'
    let arranged := e.renderIn order entry ctx'
    (other.result = o.result ∧ o.context.SameBindings other.context) ∧
      arranged.result = o.result ∧ o.context.SameBindings arranged.context := by
  have hin : ∀ order, (e.renderIn order entry ctx').result = (e.render entry ctx).result ∧
      (e.render entry ctx).context.SameBindings (e.renderIn order entry ctx').context := by
    intro order
    have htracks := bindingsLink.tracks_renderIn (e := e) .written order entry
    rw [Renderer.renderIn_written] at htracks
    obtain ⟨hresult, hholds⟩ :=
      bindingsLink.tracks_iff.1 htracks ⟨ctx, e.cache, []⟩ ⟨ctx', e.cache, []⟩ ⟨h, rfl⟩
    exact ⟨hresult.symm, hholds.contexts⟩
  have hwritten := hin .written
  rw [Engine.renderIn_written] at hwritten
  exact ⟨hwritten, hin order⟩

/-- A page with two sections and a layout that includes a view in a loop. -/
def pageRenderer : Renderer :=
  .ofSources
    [("page", "@extends('main')@section('title', $a)@section('side')<{{ $b }}>@endsection body"),
      ("main", "{{ $title }}|@yield('side')|@yield('content')" ++
        "@foreach([$b, $a] as $x)@include('item')@endforeach"),
      ("item", "({{ $x }}{{ $title }})")]

def SectionOrder.reversed : SectionOrder :=
  ⟨fun _ sections => sections.reverse, fun _ sections => sections.reverse_perm⟩

theorem render_eq_of_sameBindings_page :
    let ctx : Context := ⟨[("a", .text "A"), ("b", .text "B")]⟩
    let ctx' : Context := ⟨[("b", .text "B"), ("a", .text "A")]⟩
    let o := (Engine.new pageRenderer).render (.view "page") ctx
    let other := (Engine.new pageRenderer).render (.view "page") ctx'
    let arranged := (Engine.new pageRenderer).renderIn .reversed (.view "page") ctx'
    ctx.SameBindings ctx' ∧ o.result = .ok "A|<B>| body(BA)(AA)" ∧
      (other.result = o.result ∧ o.context.SameBindings other.context) ∧
      arranged.result = o.result ∧ o.context.SameBindings arranged.context := by
  intro ctx ctx' o other arranged
  have hsame : ctx.SameBindings ctx' :=
    (Context.sameBindings_iff_perm (by decide)).2 (.swap _ _ _)
  have hresult : o.result = .ok "A|<B>| body(BA)(AA)" := by cbv
  exact ⟨hsame, hresult,
    render_eq_of_sameBindings (Engine.new pageRenderer) (.view "page") hsame .reversed⟩

end Templating
