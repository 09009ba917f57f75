import Templating.Proofs.Render.Cache
import Templating.Proofs.Render.Course

/-!
# What a render leaves in the context of its caller

A render only ever adds names to the context of its caller, behind those that were there, and only
loops bind them. Which loops can do so is seen from the trees alone (`Engine.Reaches`): those of the
page itself, of its sections, and of the views that these include, in all of them only what stands
outside error blocks. A section of a page that extends a layout is compiled on its own, so it counts
even when its block stands in an error block. Layouts never count.
-/

namespace Templating

namespace Node

/-- The trees that a page renders in the context of its caller: its own and, if it extends a layout,
those of its sections. -/
def pageTrees (page : List Node) : List (List Node) :=
  page ::
    if (firstLayout? page).isSome then
      (Section.ofNodes page).filterMap fun
        | .block _ body => some body
        | .value _ _ => none
    else []

theorem mem_pageTrees {page body : List Node} {name : String} (hl : (firstLayout? page).isSome)
    (h : Section.block name body ∈ Section.ofNodes page) : body ∈ pageTrees page := by
  rw [pageTrees, if_pos hl]
  exact List.mem_cons_of_mem _ (List.mem_filterMap.2 ⟨_, h, rfl⟩)

end Node

/-- The names of `before` are the first ones of `after`, and only names in `bound` are new or have
another value. -/
structure Context.Grown (bound : String → Prop) (before after : Context) : Prop where
  names_prefix : before.names <+: after.names
  bound_of_ne : ∀ name, after.find? name ≠ before.find? name → bound name

namespace Context.Grown

variable {bound wider : String → Prop} {c d e : Context}

theorem refl (bound : String → Prop) (c : Context) : Grown bound c c where
  names_prefix := List.prefix_rfl
  bound_of_ne := fun _ h => absurd rfl h

theorem mono (h : Grown bound c d) (hw : ∀ name, bound name → wider name) : Grown wider c d where
  names_prefix := h.names_prefix
  bound_of_ne := fun name hne => hw name (h.bound_of_ne name hne)

theorem trans (h : Grown bound c d) (h' : Grown bound d e) : Grown bound c e where
  names_prefix := h.names_prefix.trans h'.names_prefix
  bound_of_ne := by
    intro name hne
    by_cases hd : d.find? name = c.find? name
    · exact h'.bound_of_ne name (hd ▸ hne)
    · exact h.bound_of_ne name hd

theorem bind {name : String} (h : bound name) (c : Context) (value : Value) :
    Grown bound c (c.bind name value) where
  names_prefix := by
    rw [Context.names_bind]
    split
    · exact List.prefix_rfl
    · exact List.prefix_append _ _
  bound_of_ne := by
    intro other hne
    rw [Context.find?_bind] at hne
    split at hne
    · rename_i hother
      exact hother ▸ h
    · exact absurd rfl hne

end Context.Grown

namespace Engine

def parsed? (e : Engine) (name : String) : Option Parsed :=
  match e.renderer.views name with
  | .ok view => some (e.renderer.parseCached name view.source e.cache).1
  | .error _ => none

def tree (e : Engine) (view : String) : List Node :=
  match e.parsed? view with
  | some parsed => parsed.root.children
  | none => []

/-- The trees from which a render that begins with `trees` binds names in the context of its caller:
these and the views that they include outside error blocks. An include counts when it was asked for,
not from a copy of the context, under the name that it gives in some context. -/
inductive Reaches (e : Engine) (asked : List Request) (trees : List (List Node)) :
    List Node → Prop where
  | tree {ns} (h : ns ∈ trees) : Reaches e asked trees ns
  | included {ns view loc c q parsed} (h : Reaches e asked trees ns)
      (hview : .includeView view loc ∈ Node.outsideErrors ns) (hq : q ∈ asked)
      (hroute : q.route = .inclusion) (hdetached : q.frame.detached = false)
      (hname : e.renderer.evaluator.output c view = q.view)
      (hparsed : e.parsed? q.view = some parsed) : Reaches e asked trees parsed.root.children

/-- The name is bound by a loop outside error blocks in one of these trees. -/
def Binds (e : Engine) (asked : List Request) (trees : List (List Node)) (name : String) : Prop :=
  ∃ ns, e.Reaches asked trees ns ∧ ∃ n ∈ Node.outsideErrors ns, name ∈ n.loopNames

variable {e : Engine} {asked asked' : List Request} {trees : List (List Node)}

theorem Reaches.mono {ns : List Node} (h : e.Reaches asked trees ns) (hsub : asked ⊆ asked') :
    e.Reaches asked' trees ns := by
  induction h with
  | tree h => exact .tree h
  | included _ hview hq hroute hdetached hname hparsed ih =>
    exact .included ih hview (hsub hq) hroute hdetached hname hparsed

theorem Binds.mono {name : String} (h : e.Binds asked trees name) (hsub : asked ⊆ asked') :
    e.Binds asked' trees name := by
  obtain ⟨ns, hns, hname⟩ := h
  exact ⟨ns, hns.mono hsub, hname⟩

/-- The cache gives every view the parsed form that the engine began with. -/
def Kept (e : Engine) (cache : Cache) : Prop :=
  ∀ name view, e.renderer.views name = .ok view →
    (e.renderer.parseCached name view.source cache).1 =
      (e.renderer.parseCached name view.source e.cache).1

theorem parseCached_fst (r : Renderer) (name source : String) (cache : Cache) :
    (r.parseCached name source cache).1 =
      match Entries.find? name cache with
      | some (old, parsed) =>
        if old = r.fingerprint source then parsed else parseTemplate r.options.markers source
      | none => parseTemplate r.options.markers source := by
  unfold Renderer.parseCached
  cases Entries.find? name cache with
  | none => rfl
  | some entry => by_cases hmark : entry.1 = r.fingerprint source <;> simp [hmark]

theorem find?_parseCached (r : Renderer) (name source other : String) (cache : Cache) :
    Entries.find? other (r.parseCached name source cache).2 =
      if other = name then some (r.fingerprint source, (r.parseCached name source cache).1)
      else Entries.find? other cache := by
  unfold Renderer.parseCached
  cases hfind : Entries.find? name cache with
  | none => simp [Entries.find?_insert]
  | some entry =>
    obtain ⟨old, parsed⟩ := entry
    by_cases hmark : old = r.fingerprint source
    · subst hmark
      by_cases hother : other = name
      · simp [hother, hfind]
      · simp [hother]
    · simp [hmark, Entries.find?_insert]

theorem Kept.parseCached {cache : Cache} {name : String} {view : ViewSource} (h : e.Kept cache)
    (hv : e.renderer.views name = .ok view) :
    e.Kept (e.renderer.parseCached name view.source cache).2 := by
  intro other view' hv'
  rw [← h other view' hv', parseCached_fst, find?_parseCached]
  by_cases hname : other = name
  · subst hname
    rw [hv] at hv'
    cases hv'
    simp
  · rw [if_neg hname, parseCached_fst]

/-- Where a render stands: the requests `asked` have been made, and the cache is kept. -/
structure At (e : Engine) (asked : List Request) (s : RenderState) : Prop where
  asked : asked ⊆ s.requests
  kept : e.Kept s.cache

/-- The course of a render that began with `trees`, after the requests `asked`. In a copy of the
context nothing is said of the names that are bound. -/
def course (e : Engine) (trees : List (List Node)) (asked : List Request) : Course where
  Leads := fun f s t => e.At asked s →
    e.At asked t ∧ s.requests ⊆ t.requests ∧
      (f.detached = false → Context.Grown (e.Binds t.requests trees) s.context t.context)
  refl := fun _ s h => ⟨h, List.Subset.refl _, fun _ => .refl _ _⟩
  trans := by
    intro f s t u h h' hs
    obtain ⟨ht, hst, hgrown⟩ := h hs
    obtain ⟨hu, htu, hgrown'⟩ := h' ht
    refine ⟨hu, List.Subset.trans hst htu, fun hf => ?_⟩
    exact ((hgrown hf).mono fun _ hbound => hbound.mono htu).trans (hgrown' hf)
  detached := by
    intro f c s t h hs
    obtain ⟨ht, hst, -⟩ := h ⟨hs.asked, hs.kept⟩
    exact ⟨⟨ht.asked, ht.kept⟩, hst, fun _ => .refl _ _⟩

variable {f g : Frame} {α : Type}

theorem follows_congr {act : Render α} (hfg : f.detached = g.detached)
    (h : (e.course trees asked).Follows f act) : (e.course trees asked).Follows g act := by
  intro s hs
  obtain ⟨ht, hst, hgrown⟩ := h s hs
  exact ⟨ht, hst, fun hg => hgrown (hfg.trans hg)⟩

theorem binds_of_detached (hf : f.detached = true) (name : String) :
    (e.course trees asked).Binds f name := by
  intro s value hs
  exact ⟨⟨hs.asked, hs.kept⟩, List.Subset.refl _, fun h => by rw [hf] at h; cases h⟩

theorem binds_of_reaches {ns : List Node} (h : e.Reaches asked trees ns) :
    ∀ n ∈ Node.outsideErrors ns, ∀ name ∈ n.loopNames, (e.course trees asked).Binds f name := by
  intro n hn name hname s value hs
  refine ⟨⟨hs.asked, hs.kept⟩, List.Subset.refl _, fun _ => .bind ?_ _ _⟩
  exact ⟨ns, h.mono hs.asked, n, hn, hname⟩

theorem eq_of_check {r : Renderer} {name : String} {parsed parsed' : Parsed}
    (h : r.check name parsed = .ok parsed') : parsed' = parsed := by
  unfold Renderer.check at h
  split at h
  · cases h
  · cases h
    rfl

theorem Kept.load {s : RenderState} (h : e.Kept s.cache) (name : String) :
    e.Kept (e.renderer.load name s).2.cache ∧
      ∀ parsed, (e.renderer.load name s).1 = .ok parsed → e.parsed? name = some parsed := by
  unfold Renderer.load
  cases hv : e.renderer.views name with
  | error cause => exact ⟨h, fun _ hparsed => by cases hparsed⟩
  | ok view =>
    refine ⟨h.parseCached hv, fun parsed hparsed => ?_⟩
    rw [parsed?, hv, eq_of_check hparsed, h name view hv]

theorem note_load_at {s : RenderState} (hs : e.At asked s) (q : Request) :
    let after := (Render.note q >>= fun _ => e.renderer.load q.view) s
    e.At (q :: asked) after.2 ∧ s.requests ⊆ after.2.requests ∧ after.2.context = s.context ∧
      ∀ parsed, after.1 = .ok parsed → e.parsed? q.view = some parsed := by
  obtain ⟨hkept, hparsed⟩ := Kept.load (s := { s with requests := q :: s.requests }) hs.kept q.view
  have hrequests := note_load_requests e.renderer q q.view s
  refine ⟨⟨?_, hkept⟩, ?_, note_load_context e.renderer q q.view s, hparsed⟩
  · exact hrequests ▸ List.cons_subset_cons _ hs.asked
  · exact hrequests ▸ List.subset_cons_self _ _

theorem leads_of_note {s t u : RenderState} {q : Request} (ht : e.At (q :: asked) t)
    (hst : s.requests ⊆ t.requests) (hc : t.context = s.context)
    (h : (e.course trees (q :: asked)).Leads f t u) : (e.course trees asked).Leads f s u := by
  intro _
  obtain ⟨hu, htu, hgrown⟩ := h ht
  refine ⟨⟨?_, hu.kept⟩, List.Subset.trans hst htu, fun hf => hc ▸ hgrown hf⟩
  exact List.Subset.trans (List.subset_cons_self _ _) hu.asked

theorem follows_load {q : Request} {next : Parsed → Render α}
    (hn : ∀ parsed, e.parsed? q.view = some parsed →
      (e.course trees (q :: asked)).Follows f (next parsed)) :
    (e.course trees asked).Follows f
      (Render.note q >>= fun _ => e.renderer.load q.view >>= next) := by
  intro s hs
  obtain ⟨ht, hst, hc, hparsed⟩ := note_load_at hs q
  refine leads_of_note ht hst hc ?_ hs
  rw [← bind_assoc (Render.note q)]
  rcases hload : (Render.note q >>= fun _ => e.renderer.load q.view) s with ⟨cause | parsed, t⟩
  · rw [Render.bind_apply, hload]
    exact (e.course trees _).refl f t
  · rw [Render.bind_apply, hload]
    exact hn parsed (hparsed parsed (by rw [hload])) t

theorem follows_loadIncluded {q : Request} {next : Option Parsed → Render α}
    (hnone : (e.course trees (q :: asked)).Follows f (next none))
    (hn : ∀ parsed, e.parsed? q.view = some parsed →
      (e.course trees (q :: asked)).Follows f (next (some parsed))) :
    (e.course trees asked).Follows f
      (Render.note q >>= fun _ => e.renderer.loadIncluded q.view >>= next) := by
  intro s hs
  obtain ⟨ht, hst, hc, hparsed⟩ := note_load_at hs q
  refine leads_of_note ht hst hc ?_ hs
  rw [← bind_assoc (Render.note q)]
  rcases hload : (Render.note q >>= fun _ => e.renderer.load q.view) s with ⟨cause | parsed, t⟩
  · rw [Render.bind_apply, Link.loadIncluded_apply, hload]
    cases cause with
    | viewNotFound name path => exact hnone t
    | _ => exact (e.course trees _).refl f t
  · rw [Render.bind_apply, Link.loadIncluded_apply, hload]
    exact hn parsed (hparsed parsed (by rw [hload])) t

/-- An included view is on course when the context is a copy, or when one of the trees of the page
includes the view. -/
theorem follows_renderInclude {trees : List (List Node)} {asked : List Request} (levels : Nat)
    (f : Frame) (name : String)
    (h : f.detached = true ∨ ∃ ns view loc c, e.Reaches asked trees ns ∧
      .includeView view loc ∈ Node.outsideErrors ns ∧ e.renderer.evaluator.output c view = name) :
    (e.course trees asked).Follows f (e.renderer.renderInclude levels f name) := by
  rw [Renderer.renderInclude]
  split
  · exact .pure _
  · refine follows_loadIncluded (q := ⟨name, .inclusion, f⟩) (.pure _) fun parsed hparsed => ?_
    refine .lift_bind fun inner hinner => ?_
    obtain rfl := Renderer.enterFrame_eq_ok hinner
    cases levels with
    | zero => exact .throw _
    | succ levels =>
      let inside : Frame := { f with chain := name :: f.chain, mode := .inPlace }
      have hfree : ∀ g : Frame, g.detached = true →
          (e.course trees (⟨name, .inclusion, f⟩ :: asked)).Free
            (e.renderer.renderInclude levels) g :=
        fun g hg =>
          ⟨binds_of_detached hg, fun name => follows_renderInclude levels g name (.inl hg)⟩
      -- In a copy everything goes; else the view is reached now, and so is what it includes.
      have hallows : (e.course trees (⟨name, .inclusion, f⟩ :: asked)).Allows e.renderer
          (e.renderer.renderInclude levels) inside parsed.root.children := by
        by_cases hf : f.detached = true
        · exact (hfree inside hf).allows _
        · obtain ⟨ns, view, loc, c, hns, hview, hc⟩ := h.resolve_left hf
          have hreach : e.Reaches (⟨name, .inclusion, f⟩ :: asked) trees parsed.root.children :=
            .included (hns.mono (List.subset_cons_self _ _)) hview List.mem_cons_self rfl
              (Bool.eq_false_iff.2 hf) hc hparsed
          exact ⟨binds_of_reaches hreach, fun view loc hview c =>
            follows_renderInclude levels inside _ (.inr ⟨_, view, loc, c, hreach, hview, rfl⟩)⟩
      exact follows_congr rfl
        (Course.follows_renderNodes inside (hfree inside.detach rfl) _ hallows)

theorem free_of_detached (levels : Nat) (hf : f.detached = true) :
    (e.course trees asked).Free (e.renderer.renderInclude levels) f where
  bind := binds_of_detached hf
  enter := fun name => follows_renderInclude levels f name (.inl hf)

theorem allows_of_reaches {ns : List Node} (h : e.Reaches asked trees ns) (levels : Nat) :
    (e.course trees asked).Allows e.renderer (e.renderer.renderInclude levels) f ns where
  bind := binds_of_reaches h
  enter := fun view loc hview c =>
    follows_renderInclude levels f _ (.inr ⟨ns, view, loc, c, h, hview, rfl⟩)

/-- The template of a page is on course when its layout is in a copy of the context. Its trees are
among those that the render began with, or the context is a copy already. -/
theorem follows_renderRoot {levels : Nat} {layout : Enter} {root : Root}
    (h : f.detached = true ∨ Node.pageTrees root.children ⊆ trees)
    (hlayout : ∀ g name, g.detached = true → (e.course trees asked).Follows g (layout g name)) :
    (e.course trees asked).Follows f
      (e.renderer.renderRoot (e.renderer.renderInclude levels) layout f root) := by
  let inside : Frame := { f with mode := .setAside }
  have hallows : ∀ ns ∈ Node.pageTrees root.children,
      (e.course trees asked).Allows e.renderer (e.renderer.renderInclude levels) inside ns := by
    intro ns hns
    rcases h with hf | hsub
    · exact (free_of_detached (f := inside) levels hf).allows ns
    · exact allows_of_reaches (.tree (hsub hns)) levels
  refine follows_congr (f := inside) rfl (Course.follows_renderRoot rfl ?_ ?_ ?_ ?_)
  · exact free_of_detached levels rfl
  · exact hallows _ List.mem_cons_self
  · exact fun hl name body hbody => hallows body (Node.mem_pageTrees hl hbody)
  · exact fun sections name =>
      follows_congr rfl (hlayout { inside.detach with sections := sections } name rfl)

theorem follows_renderPage {trees : List (List Node)} {asked : List Request} (route : Route)
    (levels : Nat) (f : Frame) (name : String)
    (h : f.detached = true ∨
      ∀ parsed, e.parsed? name = some parsed → Node.pageTrees parsed.root.children ⊆ trees) :
    (e.course trees asked).Follows f (e.renderer.renderPage route levels f name) := by
  rw [Renderer.renderPage]
  refine follows_load (q := ⟨name, route, f⟩) fun parsed hparsed => ?_
  refine .lift_bind fun inner hinner => ?_
  obtain rfl := Renderer.enterFrame_eq_ok hinner
  cases levels with
  | zero => exact .throw _
  | succ levels =>
    refine follows_congr (f := { f with chain := name :: f.chain }) rfl ?_
    refine follows_renderRoot (h.imp_right fun h => h parsed hparsed) fun g name hg => ?_
    exact follows_renderPage .layout levels g name (.inl hg)

/-- A render that is on course changes the context of its caller by the names that are bound. -/
theorem grown_of_follows {act : Renderer → Render String} {ctx : Context}
    (h : (e.course trees []).Follows Frame.outermost (act e.renderer)) :
    Context.Grown (e.Binds (e.run act ctx).requests trees) ctx (e.run act ctx).context :=
  (h ⟨ctx, e.cache, []⟩ ⟨List.nil_subset _, fun _ _ _ => rfl⟩).2.2 rfl

end Engine

namespace Renderer

variable (r : Renderer) (enter layout layout' : Enter) (f : Frame)

/-- Nothing that is bound in an error block comes out of it. -/
theorem context_renderNode_errorBlock (field : Expr) (body : List Node) (oneLine : Bool)
    (loc : Location) (s : RenderState) :
    (r.renderNode enter f (.errorBlock field body oneLine loc) s).2.context = s.context := by
  have hcontext : Render.context s = (.ok s.context, s) := rfl
  have hbody : ∀ (c : Context) (act : Render String) (text : String → String),
      ((Render.detached c act >>= fun t => pure (text t)) s).2.context = s.context := by
    intro c act text
    rw [Render.bind_apply]
    rcases hact : Render.detached c act s with ⟨_ | _, t⟩ <;>
      exact congrArg (·.2.context) hact.symm
  rw [renderNode, Render.bind_apply, hcontext]
  cases hmessage : r.messageFor? s.context (r.evaluator.output s.context field) with
  | none => simp only [hmessage]; rfl
  | some message => simp only [hmessage]; exact hbody _ _ _

/-- The context that a page leaves does not depend on its layout. -/
theorem context_renderRoot (root : Root) (s : RenderState) :
    (r.renderRoot enter layout f root s).2.context =
      (r.renderRoot enter layout' f root s).2.context := by
  rw [renderRoot, renderRoot, Render.bind_apply, Render.bind_apply]
  rcases r.renderNodes enter { f with mode := .setAside } root.children s with ⟨e | body, t⟩
  · rfl
  · simp only
    cases Node.firstLayout? root.children with
    | none => rfl
    | some name =>
      simp only [Render.bind_apply]
      let sections := Section.ofNodes root.children
      rcases r.renderSections enter { f with mode := .setAside } [] sections t
        with ⟨e | own, u⟩ <;> rfl

end Renderer

/-- What a render leaves in the context of its caller, on success and on failure: the names that
were there come first, in their order, and a name that is new or has another value is bound by a
loop outside error blocks, in a tree of the page or in a view that these include. What is bound in
an error block does not come out of it, and the context that a page leaves is the same whatever its
layout does. -/
theorem context_grown (e : Engine) (ctx : Context) :
    (∀ view, Context.Grown
      (e.Binds (e.renderView view ctx).requests (Node.pageTrees (e.tree view))) ctx
      (e.renderView view ctx).context) ∧
    (∀ source, Context.Grown
      (e.Binds (e.renderSource source ctx).requests
        (Node.pageTrees (parseTemplate e.renderer.options.markers source).root.children)) ctx
      (e.renderSource source ctx).context) ∧
    (∀ enter f field body oneLine loc s,
      (e.renderer.renderNode enter f (.errorBlock field body oneLine loc) s).2.context =
        s.context) ∧
    (∀ enter layout layout' f root s,
      (e.renderer.renderRoot enter layout f root s).2.context =
        (e.renderer.renderRoot enter layout' f root s).2.context) := by
  refine ⟨fun view => ?_, fun source => ?_, ?_, ?_⟩
  · refine Engine.grown_of_follows (Engine.follows_renderPage _ _ _ _ (.inr fun parsed h => ?_))
    rw [Engine.tree, h]
    exact List.Subset.refl _
  · refine Engine.grown_of_follows ?_
    rw [Renderer.renderSource]
    refine .lift_bind fun parsed hparsed => ?_
    obtain rfl := Engine.eq_of_check hparsed
    refine Engine.follows_renderRoot (.inr (List.Subset.refl _)) fun g name hg => ?_
    exact Engine.follows_renderPage _ _ g name (.inl hg)
  · exact fun enter f => e.renderer.context_renderNode_errorBlock enter f
  · exact fun enter layout layout' f => e.renderer.context_renderRoot enter layout layout' f

/-- A page with a section in an error block; the section includes a view with a loop. -/
def sideSource : String :=
  "@extends('layout')@error('name')@section('side')@include('part')@endsection@enderror"

def sideRenderer : Renderer :=
  .ofSources
    [("page", sideSource), ("layout", ""), ("part", "@foreach(['a'] as $x)@endforeach")]

/-- The tree of the page. It has no loop, and what it includes stands in the error block. -/
def sideTree : List Node :=
  let source := Source.ofChars sideSource.toList
  [.extendsLayout "layout" (source.location 0 18),
    .errorBlock (.text "name")
      [.sectionBlock "side" [.includeView (.text "part") (source.location 48 64)]
        (source.location 32 75)]
      false (source.location 18 84)]

/-- The tree of a page alone does not tell what a render of it binds: a section that stands in an
error block is compiled in the context of the page, so a loop in a view that it includes binds a
name there. -/
theorem not_context_grown_tree :
    let e := Engine.new sideRenderer
    let o := e.renderView "page" Context.empty
    e.tree "page" = sideTree ∧
      ¬Context.Grown (e.Binds o.requests [e.tree "page"]) Context.empty o.context := by
  intro e o
  have htree : e.tree "page" = sideTree := by cbv
  have hx : o.context.find? "x" = some (.text "a") := by cbv
  refine ⟨htree, fun h => ?_⟩
  -- Nothing is included outside the error block, so no other tree is reached.
  have hreach : ∀ ns, e.Reaches o.requests [e.tree "page"] ns → ns = sideTree := by
    intro ns hns
    induction hns with
    | tree hmem => exact (List.mem_singleton.1 hmem).trans htree
    | included _ hview _ _ _ _ _ ih =>
      subst ih
      simp [sideTree, Node.outsideErrors, Node.outsideErrorsOf] at hview
  have hnew : o.context.find? "x" ≠ Context.empty.find? "x" := by
    rw [hx]
    simp [Context.empty, Context.find?]
  obtain ⟨ns, hns, n, hn, hname⟩ := h.bound_of_ne "x" hnew
  rw [hreach ns hns] at hn
  have hnames : n.loopNames = [] := by
    simp only [sideTree, Node.outsideErrors, Node.outsideErrorsOf, List.cons_append,
      List.nil_append, List.mem_cons, List.not_mem_nil, or_false] at hn
    rcases hn with rfl | rfl <;> rfl
  rw [hnames] at hname
  exact List.not_mem_nil hname

end Templating
