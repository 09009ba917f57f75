import Templating.Proofs.Render.Layouts
import Templating.Proofs.Render.Strictness

/-!
# The depth limit only cuts off

A render with a smaller limit does what one with a larger limit does, until it fails for want of a
level. The levels that are left are all that the limit has to do with a render, so a template that is
rendered on its own has the same text as a view with that source, which takes one level more: the
view stands outermost in the chain and changes nothing as long as nothing asks for it
(`depth_limit_cuts_off`).
-/

namespace Templating

/-! ## Requests stay recorded -/

def requestCourse : Course where
  Leads := fun _ s t => s.requests ⊆ t.requests
  refl := fun _ _ => List.Subset.refl _
  trans := List.Subset.trans
  detached := fun h => h

namespace Renderer

variable {r : Renderer} {q : Request} {f : Frame} {s : RenderState} {α β : Type}

theorem free_requestCourse (levels : Nat) (f : Frame) :
    requestCourse.Free (r.renderInclude levels) f where
  bind := fun _ s _ => requestCourse.refl f s
  enter := fun name s => by
    obtain ⟨asked, hasked, -⟩ := Page.follows_renderInclude (r := r) levels f name s
    change s.requests ⊆ (r.renderInclude levels f name s).2.requests
    exact hasked ▸ List.subset_append_right asked s.requests

theorem requests_bind {act : Render α} {next : α → Render β}
    (hact : (act s).2.requests = q :: s.requests) (hnext : ∀ a, requestCourse.Follows f (next a)) :
    q :: s.requests ⊆ ((act >>= next) s).2.requests := by
  rw [Render.bind_apply, ← hact]
  rcases act s with ⟨e | a, t⟩
  · exact List.Subset.refl _
  · exact hnext a t

theorem requests_renderInclude (levels : Nat) (f : Frame) {name : String} (h : name ≠ "")
    (s : RenderState) :
    ⟨name, .inclusion, f⟩ :: s.requests ⊆ (r.renderInclude levels f name s).2.requests := by
  rw [renderInclude, if_neg h, ← bind_assoc]
  refine requests_bind (f := f) (note_loadIncluded_requests r ⟨name, .inclusion, f⟩ s) fun found => ?_
  cases found with
  | none => exact .pure _
  | some parsed =>
    refine .lift_bind fun inner _ => ?_
    cases levels with
    | zero => exact .throw _
    | succ levels =>
      have hfree := free_requestCourse (r := r) levels
      exact Course.follows_renderNodes _ (hfree _) _ ((hfree _).allows _)

theorem requests_renderPage (route : Route) (levels : Nat) (f : Frame) (name : String)
    (s : RenderState) :
    ⟨name, route, f⟩ :: s.requests ⊆ (r.renderPage route levels f name s).2.requests := by
  rw [renderPage, ← bind_assoc]
  refine requests_bind (f := f) (note_load_requests r ⟨name, route, f⟩ name s) fun parsed => ?_
  refine .lift_bind fun inner _ => ?_
  cases levels with
  | zero => exact .throw _
  | succ levels =>
    have hfree := free_requestCourse (r := r) levels
    have hlayout : ∀ g view, requestCourse.Follows g (r.renderPage .layout levels g view) :=
      fun g view s => List.Subset.trans (List.subset_cons_self _ _)
        (requests_renderPage .layout levels g view s)
    exact Course.follows_renderRoot (f := { inner with mode := .setAside }) rfl (hfree _)
      ((hfree _).allows _) (fun _ _ _ _ => (hfree _).allows _) fun sections view =>
        hlayout { inner.detach with mode := .setAside, sections := sections } view

def withMaxDepth (r : Renderer) (m : Nat) : Renderer :=
  { r with options := { r.options with maxDepth := m } }

def withView (r : Renderer) (name : String) (view : ViewSource) : Renderer :=
  { r with views := r.views.put name view }

end Renderer

/-! ## Two limits -/

/-- Two renders with their own limits. They are off once the first one ran out of levels. -/
def depthLink (r : Renderer) (m m' : Nat) : Link (r.withMaxDepth m) (r.withMaxDepth m') where
  records := Eq
  off := fun e _ => e = some (.depthExceeded m)
  off_error := by
    rintro record h
    cases h

theorem depthLink_loading (r : Renderer) (m m' : Nat) : (depthLink r m m').Loading := by
  refine .of_outer_eq_nil rfl (fun q => ⟨?_, ?_⟩) ?_
  · rintro s h
    cases h
  · rintro ⟨c, cache, requests⟩ ⟨c', cache', requests'⟩ ⟨hc, hrecords⟩
    obtain rfl : c = c' := hc
    obtain ⟨rfl, rfl⟩ : cache = cache' ∧ requests = requests' := Prod.mk.inj hrecords
    exact .inr ⟨rfl, rfl, rfl⟩
  · rintro name path record h
    cases h

theorem depthLink_levels (r : Renderer) {m m' levels levels' : Nat} (h : levels ≤ levels') :
    (depthLink r m m').Levels levels levels' :=
  .inr ⟨h, fun _ => rfl⟩

namespace Engine

/-- With a smaller limit a render gives what it gives with a larger one, or it runs out of levels. -/
theorem render_withMaxDepth_of_le (r : Renderer) (ctx : Context) (entry : Entry) {m m' : Nat}
    (h : m ≤ m') :
    ((new (r.withMaxDepth m)).render entry ctx).reply =
        ((new (r.withMaxDepth m')).render entry ctx).reply ∨
      ((new (r.withMaxDepth m)).render entry ctx).result = .error (.depthExceeded m) := by
  have htracks := (depthLink_loading r m m').tracks_render rfl (depthLink_levels r h) entry
    fun _ _ => .lift _
  rcases htracks.agree ⟨ctx, [], []⟩ ⟨ctx, [], []⟩ ⟨rfl, rfl⟩ with hoff | ⟨hresult, hholds⟩
  · exact .inr (Render.failure?_eq_some hoff)
  · exact .inl (Prod.ext hresult hholds.contexts)

end Engine

/-! ## A view and its source -/

/-- A render and one by a renderer that has one more view and is inside it. They are off once the
first one asked for a view of that name. -/
def viewLink (r : Renderer) (name : String) (view : ViewSource) :
    Link r (r.withView name view) where
  records := fun record record' =>
    (Engine.new r).Kept record.1 ∧ (Engine.new (r.withView name view)).Kept record'.1
  off := fun _ record => ∃ q ∈ record.2, q.view = name
  outer := [name]
  off_error := fun h _ => h

theorem viewLink_loading (r : Renderer) (name : String) (view : ViewSource) :
    (viewLink r name view).Loading where
  request := fun q =>
    { off := by
        rintro s ⟨p, hp, hname⟩
        refine ⟨p, ?_, hname⟩
        rw [RenderState.record, note_load_requests]
        exact List.mem_cons_of_mem q hp
      agree := by
        rintro s s' ⟨hc, hrecords⟩
        obtain ⟨hkept, hkept'⟩ : (Engine.new r).Kept s.cache ∧
          (Engine.new (r.withView name view)).Kept s'.cache := hrecords
        by_cases hname : q.view = name
        · left
          refine ⟨q, ?_, hname⟩
          rw [RenderState.record, note_load_requests]
          exact List.mem_cons_self
        · right
          have hviews : (r.withView name view).views q.view = r.views q.view := if_neg hname
          cases hv : r.views q.view with
          | error e =>
            rw [note_load_of_error hv, note_load_of_error (hviews.trans hv)]
            exact ⟨rfl, hc, hkept, hkept'⟩
          | ok v =>
            have hv' := hviews.trans hv
            rw [note_load_of_ok hv, note_load_of_ok hv', hkept.parse_eq hv, hkept'.parse_eq hv']
            exact ⟨rfl, hc, hkept.parseCached hv, hkept'.parseCached hv'⟩ }
  off_missing := fun h => h
  off_include := by
    intro levels f other hother hne s
    obtain rfl := List.mem_singleton.1 hother
    exact ⟨_, Renderer.requests_renderInclude levels f hne s List.mem_cons_self, rfl⟩
  off_page := by
    intro route levels f other hother s
    obtain rfl := List.mem_singleton.1 hother
    exact ⟨_, Renderer.requests_renderPage route levels f other s List.mem_cons_self, rfl⟩

/-- Two replies are the same, or neither is a text. -/
def AlikeOrFailed (a b : Except RenderError String × Context) : Prop :=
  a = b ∨ (∃ e, a.1 = .error e) ∧ ∃ e, b.1 = .error e

namespace AlikeOrFailed

variable {a b c : Except RenderError String × Context}

theorem trans (h : AlikeOrFailed a b) (h' : AlikeOrFailed b c) : AlikeOrFailed a c := by
  rcases h with rfl | ⟨ha, hb⟩
  · exact h'
  · rcases h' with rfl | ⟨-, hc⟩
    · exact .inr ⟨ha, hb⟩
    · exact .inr ⟨ha, hc⟩

theorem eq_of_ok (h : AlikeOrFailed a b) {text : String} (hok : a.1 = .ok text ∨ b.1 = .ok text) :
    a = b := by
  rcases h with h | ⟨⟨e, ha⟩, e', hb⟩
  · exact h
  · rw [ha, hb] at hok
    rcases hok with hok | hok <;> cases hok

end AlikeOrFailed

def Render.reply {α : Type} (act : Render α) (s : RenderState) : Except RenderError α × Context :=
  ((act s).1, (act s).2.context)

/-- With the same levels left the limit shows in errors only. -/
theorem alike_withMaxDepth (r : Renderer) (m m' : Nat) (route : Route) (levels : Nat) (f : Frame)
    (name : String) (s : RenderState) :
    AlikeOrFailed (((r.withMaxDepth m).renderPage route levels f name).reply s)
      (((r.withMaxDepth m').renderPage route levels f name).reply s) := by
  have hagree : ∀ k k', (∃ e, ((r.withMaxDepth k).renderPage route levels f name s).1 = .error e) ∨
      ((r.withMaxDepth k).renderPage route levels f name).reply s =
        ((r.withMaxDepth k').renderPage route levels f name).reply s := by
    intro k k'
    have htracks := (depthLink_loading r k k').tracks_renderPage route levels levels
      (depthLink_levels r (Nat.le_refl levels)) f name
    rw [depthLink, Frame.within_nil] at htracks
    rcases htracks.agree s s ⟨rfl, rfl⟩ with hoff | ⟨hresult, hholds⟩
    · exact .inl ⟨_, Render.failure?_eq_some hoff⟩
    · exact .inr (Prod.ext hresult hholds.contexts)
  rcases hagree m m' with he | heq
  · rcases hagree m' m with he' | heq
    · exact .inr ⟨he, he'⟩
    · exact .inl heq.symm
  · exact .inl heq

theorem Renderer.check_cases (r : Renderer) (parsed : Parsed) :
    (∀ name, r.check name parsed = .ok parsed) ∨ ∀ name, ∃ e, r.check name parsed = .error e := by
  by_cases h : (r.options.strict && !parsed.errors.isEmpty) = true
  · exact .inr fun name => ⟨_, if_pos h⟩
  · exact .inl fun name => if_neg h

/-- A template that is rendered on its own and a view with this source, which has one more level,
are alike when the template does not ask for the view. -/
theorem alike_source_view (r : Renderer) (name : String) (view : ViewSource) (ctx : Context)
    (h : ∀ q ∈ (r.render (.source view.source) ⟨ctx, [], []⟩).2.requests, q.view ≠ name) :
    AlikeOrFailed ((r.render (.source view.source)).reply ⟨ctx, [], []⟩)
      (((r.withView name view).renderPage .entry (r.options.maxDepth + 1) Frame.outermost name).reply
        ⟨ctx, [], []⟩) := by
  let r' := r.withView name view
  let parsed := parseTemplate r.options.markers view.source
  let loaded : RenderState :=
    ⟨ctx, (r'.parseCached name view.source []).2, [⟨name, .entry, Frame.outermost⟩]⟩
  have hv : r'.views name = .ok view := if_pos rfl
  have hload : (Render.note ⟨name, .entry, Frame.outermost⟩ >>= fun _ => r'.load name) ⟨ctx, [], []⟩ =
      (r'.check name parsed, loaded) := note_load_of_ok hv ⟨ctx, [], []⟩
  have hpage : r'.renderPage .entry (r.options.maxDepth + 1) Frame.outermost name =
      (Render.note ⟨name, .entry, Frame.outermost⟩ >>= fun _ => r'.load name) >>= fun parsed =>
        r'.renderRoot (r'.renderInclude r.options.maxDepth) (r'.renderPage .layout r.options.maxDepth)
          (Frame.outermost.within [name]) parsed.root := by
    rw [Renderer.renderPage, bind_assoc]
    rfl
  rcases r.check_cases parsed with hok | hrefused
  · -- Both render the same tree, the second one inside the view.
    have hsource : r.render (.source view.source) ⟨ctx, [], []⟩ =
        r.renderRoot (r.renderInclude r.options.maxDepth) (r.renderPage .layout r.options.maxDepth)
          Frame.outermost parsed.root ⟨ctx, [], []⟩ := by
      rw [Renderer.render, Renderer.renderSource, hok]
      rfl
    have hview : r'.renderPage .entry (r.options.maxDepth + 1) Frame.outermost name ⟨ctx, [], []⟩ =
        r'.renderRoot (r'.renderInclude r.options.maxDepth) (r'.renderPage .layout r.options.maxDepth)
          (Frame.outermost.within [name]) parsed.root loaded := by
      have hcheck : r'.check name parsed = .ok parsed := hok name
      rw [hpage, Render.bind_apply, hload, hcheck]
    have hloading := viewLink_loading r name view
    have hlevels : (viewLink r name view).Levels r.options.maxDepth r.options.maxDepth :=
      .inl ⟨rfl, rfl⟩
    have htracks := Link.tracks_renderRoot (hloading.tracks_renderInclude _ _ hlevels)
      (hloading.tracks_renderPage .layout _ _ hlevels) Frame.outermost parsed.root
    have hkept : (Engine.new r').Kept loaded.cache := (Engine.kept_new r').parseCached hv
    rw [hsource] at h
    rw [Render.reply, Render.reply, hsource, hview]
    rcases htracks.agree ⟨ctx, [], []⟩ loaded ⟨rfl, Engine.kept_new r, hkept⟩ with
      ⟨q, hq, hname⟩ | ⟨hresult, hholds⟩
    · exact absurd hname (h q hq)
    · exact .inl (Prod.ext hresult hholds.contexts)
  · obtain ⟨e, he⟩ := hrefused Renderer.inlineName
    obtain ⟨e', he'⟩ := hrefused name
    have hcheck : r'.check name parsed = .error e' := he'
    refine .inr ⟨⟨e, congrArg Prod.fst (r.render_source_of_check he _)⟩, e', ?_⟩
    rw [Render.reply, hpage, Render.bind_apply, hload, hcheck]

/-- The depth limit only cuts off. A render with a smaller limit gives what it gives with a larger
one, or it fails because it has no level left. And a template that is rendered on its own gives the
same text and context as a view with this source and one more level, whenever one of the two gives a
text; the view may have any name that the template, and what it renders, does not ask for. -/
theorem depth_limit_cuts_off (r : Renderer) (ctx : Context) (m : Nat) :
    (∀ m', m ≤ m' → ∀ entry,
      let small := (Engine.new (r.withMaxDepth m)).render entry ctx
      let large := (Engine.new (r.withMaxDepth m')).render entry ctx
      small.reply = large.reply ∨ small.result = .error (.depthExceeded m)) ∧
    (∀ name view,
      let alone := (Engine.new (r.withMaxDepth m)).render (.source view.source) ctx
      let named := (Engine.new ((r.withMaxDepth (m + 1)).withView name view)).render (.view name) ctx
      (∀ q ∈ alone.requests, q.view ≠ name) →
        ∀ text, alone.result = .ok text ∨ named.result = .ok text → alone.reply = named.reply) := by
  refine ⟨fun m' hle entry => Engine.render_withMaxDepth_of_le r ctx entry hle, ?_⟩
  intro name view alone named hasked text hok
  have hview := alike_source_view (r.withMaxDepth m) name view ctx hasked
  have hlimit := alike_withMaxDepth (r.withView name view) m (m + 1) .entry (m + 1)
    Frame.outermost name ⟨ctx, [], []⟩
  exact (hview.trans hlimit).eq_of_ok hok

def itemPage : ViewSource := ⟨"page", "@include('item')"⟩

theorem views_itemPage :
    ((Engine.new (listRenderer.withMaxDepth 1)).render (.source itemPage.source)
      Context.empty).requests.map (·.view) = ["item"] := by cbv

theorem depth_limit_cuts_off_item :
    let alone := (Engine.new (listRenderer.withMaxDepth 1)).render (.source itemPage.source)
      Context.empty
    let named := (Engine.new ((listRenderer.withMaxDepth 2).withView "page" itemPage)).render
      (.view "page") Context.empty
    let large := (Engine.new (listRenderer.withMaxDepth 64)).render (.source itemPage.source)
      Context.empty
    1 ≤ 64 ∧ (alone.reply = large.reply ∨ alone.result = .error (.depthExceeded 1)) ∧
      (∀ q ∈ alone.requests, q.view ≠ "page") ∧ alone.result = .ok "<>" ∧
      alone.reply = named.reply := by
  intro alone named large
  have hcuts := depth_limit_cuts_off listRenderer Context.empty 1
  have hasked : ∀ q ∈ alone.requests, q.view ≠ "page" := by
    intro q hq hname
    have hmem : q.view ∈ ["item"] := views_itemPage ▸ List.mem_map_of_mem hq
    rw [hname] at hmem
    exact absurd hmem (by decide)
  have hresult : alone.result = .ok "<>" := by cbv
  exact ⟨by decide, hcuts.1 64 (by decide) (.source itemPage.source), hasked, hresult,
    hcuts.2 "page" itemPage hasked "<>" (.inl hresult)⟩

end Templating
