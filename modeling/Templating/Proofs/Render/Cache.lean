import Mathlib
import Templating.Proofs.Render.Agreement
import Templating.Render.History

/-!
# The cache does not show

A cached entry is used when the fingerprint of the source it came from is that of the source at
hand. As long as no two sources that were loaded under one name have the same fingerprint, every
entry of the cache is what parsing would give (`Cache.Sound`), so an engine with a history answers
as a new one does (`outcomes_reply_eq_fresh`). Options are part of what parsing depends on; setting
them empties the cache.
-/

namespace Templating

/-- No two of the loaded sources of one view have the same fingerprint. -/
def TellsApart (fingerprint : String → UInt64) (loads : List (String × String)) : Prop :=
  ∀ name source other, (name, source) ∈ loads → (name, other) ∈ loads →
    fingerprint source = fingerprint other → source = other

/-- Every entry of the cache is the parsed form of a source of that view among `loads`. -/
def Cache.Sound (r : Renderer) (loads : List (String × String)) (cache : Cache) : Prop :=
  ∀ name mark parsed, Entries.find? name cache = some (mark, parsed) →
    ∃ source, (name, source) ∈ loads ∧ r.fingerprint source = mark ∧
      parsed = parseTemplate r.options.markers source

variable {r : Renderer} {loads : List (String × String)}

theorem Cache.sound_nil : Cache.Sound r loads [] := by
  intro name mark parsed h
  cases h

theorem Cache.Sound.insert {cache : Cache} {name source : String} (h : Cache.Sound r loads cache)
    (hs : (name, source) ∈ loads) :
    Cache.Sound r loads
      (Entries.insert name (r.fingerprint source, parseTemplate r.options.markers source) cache) := by
  intro other mark parsed hfind
  rw [Entries.find?_insert] at hfind
  split at hfind
  · rename_i hname
    cases hfind
    exact ⟨source, hname ▸ hs, rfl, rfl⟩
  · exact h other mark parsed hfind

/-- A sound cache gives what parsing gives, and stays sound. -/
theorem Renderer.parseCached_sound (hd : TellsApart r.fingerprint loads) {cache : Cache}
    {name source : String} (h : Cache.Sound r loads cache) (hs : (name, source) ∈ loads) :
    (r.parseCached name source cache).1 = parseTemplate r.options.markers source ∧
      Cache.Sound r loads (r.parseCached name source cache).2 := by
  unfold Renderer.parseCached
  cases hfind : Entries.find? name cache with
  | none => exact ⟨rfl, h.insert hs⟩
  | some entry =>
    obtain ⟨old, parsed⟩ := entry
    obtain ⟨known, hknown, hmark, hparsed⟩ := h name old parsed hfind
    by_cases hold : old = r.fingerprint source
    · have hsame : known = source := hd name known source hknown hs (hmark.trans hold)
      subst hsame
      simpa only [hold, if_true] using And.intro hparsed h
    · simpa only [hold, if_false, true_and] using h.insert hs

/-- Two renders by one renderer whose caches are sound. They are off once a view was asked for whose
source is not among `loads`. -/
def cacheLink (r : Renderer) (loads : List (String × String)) : Link r r where
  records := fun record record' => record.2 = record'.2 ∧
    Cache.Sound r loads record.1 ∧ Cache.Sound r loads record'.1
  off := fun _ record => ¬r.loadsOf record.2 ⊆ loads
  off_error := fun h _ => h

theorem note_load_of_error {r : Renderer} {q : Request} {name : String} {e : LoadError}
    (h : r.views name = .error e) (s : RenderState) :
    (Render.note q >>= fun _ => r.load name) s =
      (.error (Renderer.loadError name e), { s with requests := q :: s.requests }) := by
  change r.load name { s with requests := q :: s.requests } = _
  rw [Renderer.load, h]

theorem note_load_of_ok {r : Renderer} {q : Request} {name : String} {view : ViewSource}
    (h : r.views name = .ok view) (s : RenderState) :
    (Render.note q >>= fun _ => r.load name) s =
      (r.check name (r.parseCached name view.source s.cache).1,
        { s with
          requests := q :: s.requests
          cache := (r.parseCached name view.source s.cache).2 }) := by
  change r.load name { s with requests := q :: s.requests } = _
  rw [Renderer.load, h]

/-- Of the state, a load records the request it is made for and changes the cache. -/
theorem note_load_requests (r : Renderer) (q : Request) (name : String) (s : RenderState) :
    ((Render.note q >>= fun _ => r.load name) s).2.requests = q :: s.requests := by
  cases h : r.views name with
  | error e => rw [note_load_of_error h]
  | ok view => rw [note_load_of_ok h]

theorem note_load_context (r : Renderer) (q : Request) (name : String) (s : RenderState) :
    ((Render.note q >>= fun _ => r.load name) s).2.context = s.context := by
  cases h : r.views name with
  | error e => rw [note_load_of_error h]
  | ok view => rw [note_load_of_ok h]

theorem note_loadIncluded_requests (r : Renderer) (q : Request) (s : RenderState) :
    ((Render.note q >>= fun _ => r.loadIncluded q.view) s).2.requests = q :: s.requests := by
  rw [Link.loadIncluded_apply, ← note_load_requests r q q.view s]
  rcases (Render.note q >>= fun _ => r.load q.view) s with ⟨e | parsed, t⟩
  · cases e <;> rfl
  · rfl

theorem cacheLink_loading (hd : TellsApart r.fingerprint loads) : (cacheLink r loads).Loading := by
  refine .of_outer_eq_nil rfl (fun q => ?_) fun h => h
  exact
    { off := by
        intro s hs hsub
        rw [RenderState.record, note_load_requests] at hsub
        exact hs fun load hload => hsub (List.filterMap_subset _ (List.subset_cons_self _ _) hload)
      agree := by
        intro s s' ⟨hc, hreq, hsound, hsound'⟩
        by_cases hsub : r.loadsOf (q :: s.requests) ⊆ loads
        · right
          have hreq' : q :: s.requests = q :: s'.requests := congrArg (q :: ·) hreq
          cases hv : r.views q.view with
          | error e =>
            rw [note_load_of_error hv, note_load_of_error hv]
            exact ⟨rfl, hc, hreq', hsound, hsound'⟩
          | ok view =>
            rw [note_load_of_ok hv, note_load_of_ok hv]
            have hmem := hsub (Renderer.mem_loadsOf List.mem_cons_self hv)
            obtain ⟨hp, hnext⟩ := r.parseCached_sound hd hsound hmem
            obtain ⟨hp', hnext'⟩ := r.parseCached_sound hd hsound' hmem
            exact ⟨congrArg (r.check q.view) (hp.trans hp'.symm), hc, hreq', hnext, hnext'⟩
        · left
          intro h
          rw [RenderState.record, note_load_requests] at h
          exact hsub h }

theorem tracks_cacheLink (hd : TellsApart r.fingerprint loads) (entry : Entry) :
    (cacheLink r loads).Tracks (r.render entry) (r.render entry) :=
  (cacheLink_loading hd).tracks_render rfl (.inl ⟨rfl, rfl⟩) entry fun _ _ => .lift _

namespace Engine

/-- From an engine with a sound cache a render gives what it gives from a new engine, and the cache
stays sound, when its loads are among `loads`. -/
theorem render_eq_fresh {e : Engine} (hd : TellsApart e.renderer.fingerprint loads)
    (hs : Cache.Sound e.renderer loads e.cache) {entry : Entry} {ctx : Context}
    (hl : (e.render entry ctx).loads ⊆ loads) :
    (e.render entry ctx).reply = ((Engine.new e.renderer).render entry ctx).reply ∧
      Cache.Sound e.renderer loads (e.render entry ctx).engine.cache := by
  rcases (tracks_cacheLink hd entry).agree ⟨ctx, e.cache, []⟩ ⟨ctx, [], []⟩
    ⟨rfl, rfl, hs, Cache.sound_nil⟩ with hoff | ⟨hr, hholds⟩
  · exact absurd hl hoff
  · exact ⟨Prod.ext hr hholds.contexts, hholds.records.2.1⟩

theorem fingerprint_perform (e : Engine) (step : Step) :
    (e.perform step).1.renderer.fingerprint = e.renderer.fingerprint := by
  cases step <;> rfl

theorem renderer_perform (e : Engine) (step : Step) :
    (e.perform step).1.renderer = e.renderer.after step := by
  cases step <;> rfl

theorem perform_of_render? {step : Step} {entry : Entry} {ctx : Context}
    (h : step.render? = some (entry, ctx)) (e : Engine) :
    e.perform step = ((e.render entry ctx).engine, some (e.render entry ctx)) := by
  cases step <;> cases h <;> rfl

/-- One step of an engine with a sound cache: what the host sees is what it sees of a new engine,
and the cache stays sound. -/
theorem perform_eq_fresh {e : Engine} (hd : TellsApart e.renderer.fingerprint loads)
    (hs : Cache.Sound e.renderer loads e.cache) (step : Step)
    (hl : (e.perform step).2.toList.flatMap Outcome.loads ⊆ loads) :
    (e.perform step).2.map Outcome.reply =
        (step.render?.map fun (entry, ctx) => (Engine.new e.renderer).render entry ctx).map
          Outcome.reply ∧
      Cache.Sound (e.perform step).1.renderer loads (e.perform step).1.cache := by
  cases h : step.render? with
  | some asked =>
    obtain ⟨entry, ctx⟩ := asked
    rw [perform_of_render? h, Option.toList_some, List.flatMap_singleton] at hl
    obtain ⟨hreply, hsound⟩ := render_eq_fresh hd hs hl
    rw [perform_of_render? h]
    exact ⟨congrArg some hreply, hsound⟩
  | none =>
    cases step with
    | editViews edit | setHost evaluator formField assets => exact ⟨rfl, hs⟩
    -- Other options may have other delimiters, so the cache is emptied.
    | setOptions options => exact ⟨rfl, Cache.sound_nil⟩
    | render view data | renderWith view ctx | renderSource source ctx => cases h

theorem outcomes_eq_fresh {e : Engine} (hd : TellsApart e.renderer.fingerprint loads)
    (hs : Cache.Sound e.renderer loads e.cache) (steps : List Step)
    (hl : (e.outcomes steps).flatMap Outcome.loads ⊆ loads) :
    (e.outcomes steps).map Outcome.reply =
      (e.renderer.freshOutcomes steps).map Outcome.reply := by
  induction steps generalizing e with
  | nil => rfl
  | cons step steps ih =>
    rw [outcomes, List.flatMap_append, List.append_subset] at hl
    obtain ⟨hreply, hsound⟩ := perform_eq_fresh hd hs step hl.1
    have hrest := ih (by rwa [fingerprint_perform]) hsound hl.2
    rw [outcomes, Renderer.freshOutcomes, List.map_append, List.map_append, ← renderer_perform,
      hrest, ← Option.toList_map, ← Option.toList_map, hreply]

end Engine

/-- The cache does not show: whatever steps are done on one engine, each of its renders gives the
same text or error and leaves the same context as on an engine made anew for that render. Assumed of
the fingerprint is only that it tells apart the sources that these steps load under one name. -/
theorem outcomes_reply_eq_fresh (r : Renderer) (steps : List Step)
    (h : TellsApart r.fingerprint (((Engine.new r).outcomes steps).flatMap Outcome.loads)) :
    ((Engine.new r).outcomes steps).map Outcome.reply =
      (r.freshOutcomes steps).map Outcome.reply :=
  Engine.outcomes_eq_fresh h Cache.sound_nil steps (List.Subset.refl _)

/-- Two views, one of which includes the other; the fingerprint is the length of the source. -/
def navRenderer : Renderer :=
  .ofSources [("home", "a@include('nav')"), ("nav", "b")]

/-- The included view gets a stray closing directive, which is an error once the renderer is strict,
and then it is removed. -/
def navSteps : List Step :=
  [.render "home" .null,
    .editViews (·.put "nav" ⟨"memory:nav", "@endif"⟩),
    .render "home" .null,
    .setOptions { RenderOptions.standard with strict := true },
    .render "home" .null,
    .editViews (·.drop "nav" (.notFound "memory:nav")),
    .render "home" .null]

theorem outcomes_reply_eq_fresh_nav :
    TellsApart navRenderer.fingerprint
        (((Engine.new navRenderer).outcomes navSteps).flatMap Outcome.loads) ∧
      ((Engine.new navRenderer).outcomes navSteps).map Outcome.reply =
        (navRenderer.freshOutcomes navSteps).map Outcome.reply := by
  have hloads : ((Engine.new navRenderer).outcomes navSteps).flatMap Outcome.loads =
      [("nav", "b"), ("home", "a@include('nav')"), ("nav", "@endif"),
        ("home", "a@include('nav')"), ("nav", "@endif"), ("home", "a@include('nav')"),
        ("home", "a@include('nav')")] := by
    cbv
  have happart : TellsApart navRenderer.fingerprint
      (((Engine.new navRenderer).outcomes navSteps).flatMap Outcome.loads) := by
    rw [hloads]
    intro name source other hs ho hf
    have hb : "b".length.toUInt64 ≠ "@endif".length.toUInt64 := by decide
    simp only [List.mem_cons, Prod.mk.injEq, List.not_mem_nil, or_false] at hs ho
    grind [navRenderer, Renderer.ofSources]
  exact ⟨happart, outcomes_reply_eq_fresh navRenderer navSteps happart⟩

end Templating
