import Templating.Proofs.Render.Cycles

/-!
# What a render fails with

An error comes up in one step and is handed on by everything that is pending, so the first error is
the one that a render ends with (`Engine.result_of_reaches`). Which steps can give which error is seen
from single steps then: a view that is not there fails where it is asked for as a page
(`Engine.asked_as_page_of_missing`), and a view that is there and cannot be used fails wherever it is
asked for (`Engine.result_of_asked`).
-/

namespace Templating

def Store.withRecord (s : Store) (cache : Cache) (asked : List Asked) : Store :=
  { s with cache := cache, asked := asked }

def Machine.withRecord (m : Machine) (cache : Cache) (asked : List Asked) : Machine :=
  { m with store := m.store.withRecord cache asked }

theorem Call.cases_within (c : Call) :
    c.Within ∨ (∃ name, c = .page name) ∨ ∃ name, c = .inclusion name := by
  cases c with
  | page name => exact .inr (.inl ⟨name, rfl⟩)
  | inclusion name => exact .inr (.inr ⟨name, rfl⟩)
  | _ => exact .inl trivial

/-- The call asks for the view of that name; an include without a name asks for none. -/
inductive Call.Asks : Call → String → Prop where
  | page (name : String) : Asks (.page name) name
  | inclusion {name : String} (h : name ≠ "") : Asks (.inclusion name) name

namespace Renderer

open Machine

variable {r : Renderer} {m m' : Machine} {c : Call} {pending : List Pending} {s : Store}
  {err : RenderError}

/-! ## What a step does not see -/

/-- Neither the views nor what is recorded of them has a part in the first step of a node. -/
theorem beginNode_withRecord (views : Views) (cache : Cache) (asked : List Asked)
    (mode : SectionMode) (n : Node) :
    ({ r with views := views } : Renderer).beginNode mode n pending (s.withRecord cache asked) =
      (r.beginNode mode n pending s).withRecord cache asked := by
  cases n with
  | conditional condition consequent alternate loc =>
    simp only [beginNode]
    rw [apply_ite fun m : Machine => m.withRecord cache asked]
    refine ite_congr rfl (fun _ => rfl) fun _ => ?_
    cases alternate <;> rfl
  | errorBlock field body oneLine loc =>
    have hmessage : ({ r with views := views } : Renderer).messageFor? (s.withRecord cache asked).context
        (r.evaluator.output (s.withRecord cache asked).context field) =
      r.messageFor? s.context (r.evaluator.output s.context field) := rfl
    rw [beginNode, beginNode, hmessage]
    cases r.messageFor? s.context (r.evaluator.output s.context field) <;> rfl
  | sectionBlock name body loc => cases mode <;> rfl
  | _ => rfl

theorem beginSections_withRecord (views : Views) (cache : Cache) (asked : List Asked)
    (todo : List Section) (done : Entries String) (body layout : String) :
    ({ r with views := views } : Renderer).beginSections todo done body layout pending
        (s.withRecord cache asked) =
      (r.beginSections todo done body layout pending s).withRecord cache asked := by
  cases todo with
  | nil => rfl
  | cons part todo =>
    simp only [beginSections]
    split
    · rfl
    · cases part <;> rfl

theorem begin_withRecord (views : Views) (cache : Cache) (asked : List Asked) (hc : c.Within) :
    ({ r with views := views } : Renderer).begin c pending (s.withRecord cache asked) =
      (r.begin c pending s).withRecord cache asked := by
  cases c with
  | page name => cases hc
  | inclusion name => cases hc
  | root root => rfl
  | sections todo done body layout =>
    exact beginSections_withRecord views cache asked todo done body layout
  | nodes mode todo out => cases todo <;> rfl
  | node mode n => exact beginNode_withRecord views cache asked mode n
  | turns mode key item body todo out => cases todo <;> rfl

theorem resume_withRecord (cache : Cache) (asked : List Asked) (k : Pending)
    (result : Except RenderError String) :
    resume k result pending (s.withRecord cache asked) =
      (resume k result pending s).withRecord cache asked := by
  cases k with
  | body root =>
    cases result with
    | error err => rfl
    | ok text =>
      simp only [resume]
      cases Node.firstLayout? root.children <;> rfl
  | leave name => rfl
  | scope ctx oneLine => rfl
  | layout ctx sections => rfl
  | sections name todo done body layout => cases result <;> rfl
  | nodes mode todo out => cases result <;> rfl
  | turns mode key item body todo out => cases result <;> rfl

theorem asked_begin (hc : c.Within) : (r.begin c pending s).store.asked = s.asked :=
  congrArg (·.store.asked) (begin_withRecord r.views s.cache s.asked hc)

theorem asked_resume (k : Pending) (result : Except RenderError String) :
    (resume k result pending s).store.asked = s.asked :=
  congrArg (·.store.asked) (resume_withRecord s.cache s.asked k result)

theorem asked_enter (name : String) (inside : Call) :
    (r.enter name inside pending s).store.asked = s.asked := by
  unfold enter
  split
  · rfl
  · split <;> rfl

theorem asked_beginPage (name : String) :
    (r.beginPage name pending s).store.asked = (s.ask name).asked := by
  unfold beginPage
  rcases r.fetch name s.cache with ⟨cause | parsed, cache⟩
  · rfl
  · exact asked_enter name _

theorem asked_beginInclusion {name : String} (h : name ≠ "") :
    (r.beginInclusion name pending s).store.asked = (s.ask name).asked := by
  rw [beginInclusion, if_neg h]
  rcases r.fetch name s.cache with ⟨cause | parsed, cache⟩
  · cases cause <;> rfl
  · exact asked_enter name _

/-- A step records the view that is called for, if there is one, and nothing else. -/
theorem asked_next (hnext : r.next? m = some m') : m'.store.asked = m.store.asked ∨
    ∃ c name, m.control = .call c ∧ c.Asks name ∧ m'.store.asked = (m.store.ask name).asked := by
  obtain ⟨control, pending, s⟩ := m
  cases control with
  | call c =>
    cases hnext
    rcases c.cases_within with hc | ⟨name, rfl⟩ | ⟨name, rfl⟩
    · exact .inl (asked_begin hc)
    · exact .inr ⟨_, name, rfl, .page name, asked_beginPage name⟩
    · by_cases hname : name = ""
      · subst hname
        exact .inl rfl
      · exact .inr ⟨_, name, rfl, .inclusion hname, asked_beginInclusion hname⟩
  | result result =>
    cases pending with
    | nil => cases hnext
    | cons k pending =>
      cases hnext
      exact .inl (asked_resume k result)

theorem asked_subset_of_reaches (h : r.Reaches m m') : m.store.asked ⊆ m'.store.asked := by
  induction h with
  | refl => exact List.Subset.refl _
  | tail _ hnext ih =>
    rcases asked_next hnext with heq | ⟨_, name, -, -, heq⟩
    · exact heq ▸ ih
    · rw [heq]
      exact List.Subset.trans ih (List.subset_cons_self _ _)

/-! ## Errors are handed on -/

theorem resume_error (k : Pending) (pending : List Pending) (s : Store) (err : RenderError) :
    ∃ t, resume k (.error err) pending s = give (.error err) pending t := by
  cases k <;> exact ⟨_, rfl⟩

theorem control_next (h : m.control = .result (.error err)) (hnext : r.next? m = some m') :
    m'.control = .result (.error err) := by
  obtain ⟨control, pending, s⟩ := m
  cases h
  cases pending with
  | nil => cases hnext
  | cons k pending =>
    cases hnext
    obtain ⟨t, heq⟩ := resume_error k pending s err
    rw [heq]
    rfl

theorem control_of_reaches (h : r.Reaches m m') (hm : m.control = .result (.error err)) :
    m'.control = .result (.error err) := by
  induction h with
  | refl => exact hm
  | tail _ hnext ih => exact control_next ih hnext

/-- A run has one end, and goes through every state on the way to it. -/
theorem reaches_end {start last : Machine} (hlast : r.Reaches start last)
    (hend : r.next? last = none) (hm : r.Reaches start m) : r.Reaches m last := by
  have hunique : Relator.RightUnique fun m m' => r.next? m = some m' := fun _ _ _ h h' =>
    Option.some.inj (h.symm.trans h')
  rcases Relation.ReflTransGen.total_of_right_unique hunique hm hlast with hreaches | hback
  · exact hreaches
  · rcases hback.cases_head with rfl | ⟨_, hnext, -⟩
    · exact .refl
    · rw [hend] at hnext
      cases hnext

/-! ## Loading -/

/-- What a view is parsed to, or the error for which it is not loaded. -/
def loaded (r : Renderer) (name : String) : Except RenderError Parsed :=
  match r.views name with
  | .error cause => .error (loadError name cause)
  | .ok view => r.check name (parseTemplate r.options.markers view.source)

theorem fetch_eq_loaded {cache : Cache} (h : (Engine.new r).Kept cache) (name : String) :
    (r.fetch name cache).1 = r.loaded name := by
  unfold fetch load loaded
  cases hv : r.views name with
  | error cause => rfl
  | ok view => exact congrArg (r.check name) (h.parse_eq hv)

theorem loaded_of_notFound {name path : String} (h : r.views name = .error (.notFound path)) :
    r.loaded name = .error (.viewNotFound name path) := by
  rw [loaded, h]
  rfl

theorem loaded_of_unreadable {name path cause : String}
    (h : r.views name = .error (.unreadable path cause)) :
    r.loaded name = .error (.unreadable name path cause) := by
  rw [loaded, h]
  rfl

theorem beginPage_of_loaded (h : (Engine.new r).Kept s.cache) {name : String}
    (hload : r.loaded name = .error err) :
    ∃ t, r.beginPage name pending s = give (.error err) pending t := by
  have hfetch := fetch_eq_loaded h name
  rw [hload] at hfetch
  unfold beginPage
  generalize r.fetch name s.cache = fetched at hfetch ⊢
  obtain ⟨found, cache⟩ := fetched
  obtain rfl : found = .error err := hfetch
  exact ⟨_, rfl⟩

theorem beginInclusion_of_loaded (h : (Engine.new r).Kept s.cache) {name : String} (hname : name ≠ "")
    (hload : r.loaded name = .error err) (herr : ∀ view path, err ≠ .viewNotFound view path) :
    ∃ t, r.beginInclusion name pending s = give (.error err) pending t := by
  have hfetch := fetch_eq_loaded h name
  rw [hload] at hfetch
  rw [beginInclusion, if_neg hname]
  generalize r.fetch name s.cache = fetched at hfetch ⊢
  obtain ⟨found, cache⟩ := fetched
  obtain rfl : found = .error err := hfetch
  cases err with
  | viewNotFound view path => exact absurd rfl (herr view path)
  | _ => exact ⟨_, rfl⟩

/-- A view that is there and is not loaded fails the step that asks for it. -/
theorem control_of_asks (hkept : (Engine.new r).Kept m.store.cache) {name : String}
    (hcall : m.control = .call c) (h : c.Asks name) (hload : r.loaded name = .error err)
    (herr : ∀ view path, err ≠ .viewNotFound view path) (hnext : r.next? m = some m') :
    m'.control = .result (.error err) := by
  obtain ⟨control, pending, s⟩ := m
  cases hcall
  cases hnext
  cases h with
  | page =>
    obtain ⟨t, heq⟩ := beginPage_of_loaded hkept hload
    exact congrArg Machine.control heq
  | inclusion hname =>
    obtain ⟨t, heq⟩ := beginInclusion_of_loaded hkept hname hload herr
    exact congrArg Machine.control heq

theorem fetch_eq_viewNotFound {name view path : String} {cache : Cache}
    (h : (r.fetch name cache).1 = .error (.viewNotFound view path)) :
    view = name ∧ r.views name = .error (.notFound path) := by
  unfold fetch load at h
  cases hv : r.views name with
  | error cause =>
    rw [hv] at h
    cases cause <;> cases h
    exact ⟨rfl, rfl⟩
  | ok v =>
    simp only [hv, check] at h
    split at h <;> cases h

end Renderer

namespace Engine

variable {e : Engine} {entry : Entry} {ctx : Context} {pending : List Pending} {s : Store}
  {m m' : Machine} {err : RenderError}

/-- An error that comes up anywhere in a run is what the render ends with. -/
theorem result_of_reaches (h : e.renderer.Reaches (e.renderer.start entry ctx e.cache) m)
    (hm : m.control = .result (.error err)) : (e.render entry ctx).result = .error err := by
  have hend := Renderer.reaches_end (e.renderer.reaches_render entry ctx e.cache) rfl h
  have hcontrol := Renderer.control_of_reaches hend hm
  injection hcontrol

/-! ## Views that are not there -/

/-- In the run for an entry the view is asked for as a page: it is the one that the render is for, or
it is the layout that the tree at hand extends, once the sections of this tree are compiled. -/
inductive AsksForPage (e : Engine) (entry : Entry) (ctx : Context) (name : String) : Prop where
  | entry (h : entry = .view name) : AsksForPage e entry ctx name
  | layout {m done body}
      (hm : e.renderer.Reaches (e.renderer.start entry ctx e.cache) m)
      (hcall : m.control = .call (.sections [] done body name))
      (hlayout : Node.firstLayout? (e.treeAt entry m.store.stack) = some name) :
      AsksForPage e entry ctx name

/-- A page that is called was asked for as one, and so was a view that is reported as missing. -/
structure MissesPages (e : Engine) (entry : Entry) (ctx : Context) (m : Machine) : Prop where
  page : ∀ name, m.control = .call (.page name) → e.AsksForPage entry ctx name
  missing : ∀ name path, m.control = .result (.error (.viewNotFound name path)) →
    e.AsksForPage entry ctx name ∧ e.renderer.views name = .error (.notFound path)

namespace MissesPages

theorem give {result : Except RenderError String}
    (h : ∀ name path, result = .error (.viewNotFound name path) →
      e.AsksForPage entry ctx name ∧ e.renderer.views name = .error (.notFound path)) :
    e.MissesPages entry ctx (Machine.give result pending s) where
  page := fun _ hc => by cases hc
  missing := by
    rintro name path ⟨⟩
    exact h name path rfl

theorem text (text : String) : e.MissesPages entry ctx (Machine.give (.ok text) pending s) :=
  give nofun

theorem call {c : Call} (h : ∀ name, c = .page name → e.AsksForPage entry ctx name) :
    e.MissesPages entry ctx (Machine.call c pending s) where
  page := by
    rintro name ⟨⟩
    exact h name rfl
  missing := fun _ _ hresult => by cases hresult

theorem within {c : Call} (hc : c.Within) :
    e.MissesPages entry ctx (Machine.call c pending s) := by
  refine call ?_
  rintro name rfl
  cases hc

theorem enter {name : String} {inside : Call} (hinside : inside.Within) :
    e.MissesPages entry ctx (e.renderer.enter name inside pending s) := by
  unfold Renderer.enter
  split
  · exact give nofun
  · split
    · exact give nofun
    · exact within hinside

theorem beginPage {name : String} (h : e.AsksForPage entry ctx name) :
    e.MissesPages entry ctx (e.renderer.beginPage name pending s) := by
  unfold Renderer.beginPage
  rcases hfetch : e.renderer.fetch name s.cache with ⟨err | parsed, cache⟩
  · refine give ?_
    rintro view path ⟨⟩
    obtain ⟨rfl, hmissing⟩ := Renderer.fetch_eq_viewNotFound (congrArg Prod.fst hfetch)
    exact ⟨h, hmissing⟩
  · exact enter trivial

theorem beginInclusion (name : String) :
    e.MissesPages entry ctx (e.renderer.beginInclusion name pending s) := by
  unfold Renderer.beginInclusion
  split
  · exact text ""
  · rcases e.renderer.fetch name s.cache with ⟨err | parsed, cache⟩
    · cases err with
      | viewNotFound view path => exact text ""
      | _ => exact give nofun
    · exact enter trivial

theorem next (hm : e.renderer.Reaches (e.renderer.start entry ctx e.cache) m)
    (h : e.MissesPages entry ctx m) (hnext : e.renderer.next? m = some m') :
    e.MissesPages entry ctx m' := by
  have horder := ordered_of_reaches hm
  obtain ⟨control, pending, s⟩ := m
  cases control with
  | call c =>
    cases hnext
    cases c with
    | page name => exact beginPage (h.page name rfl)
    | inclusion name => exact beginInclusion name
    | root root => exact within trivial
    | sections todo done body layout =>
      rcases e.renderer.beginSections_cases todo done body layout pending s with
        ⟨rfl, pending', t, heq, -⟩ | ⟨c, pending', heq, hc⟩
      · simp only [Renderer.begin, heq]
        refine call ?_
        rintro _ ⟨⟩
        cases horder.control _ rfl with
        | sections _ hlayout => exact .layout hm rfl hlayout
      · simp only [Renderer.begin, heq]
        exact within hc
    | nodes mode todo out =>
      cases todo with
      | nil => exact text _
      | cons n todo => exact within trivial
    | node mode n =>
      rcases e.renderer.beginNode_cases mode n pending s with
        ⟨_, heq⟩ | ⟨view, loc, rfl, heq⟩ | ⟨c, pending', t, heq, hc, -⟩
      · simp only [Renderer.begin, heq]
        exact text _
      · simp only [Renderer.begin, heq]
        exact call nofun
      · simp only [Renderer.begin, heq]
        exact within hc
    | turns mode key item body todo out =>
      cases todo with
      | nil => exact text _
      | cons turn todo => exact within trivial
  | result result =>
    cases pending with
    | nil => cases hnext
    | cons k pending =>
      cases hnext
      rcases Renderer.resume_stack k result pending s with
        ⟨result', t, heq, -, herror⟩ | ⟨c, t, heq, hc, -⟩
      · rw [heq]
        exact give fun name path hresult => h.missing name path (congrArg _ (herror _ hresult))
      · rw [heq]
        exact within hc

end MissesPages

theorem missesPages_of_reaches (h : e.renderer.Reaches (e.renderer.start entry ctx e.cache) m) :
    e.MissesPages entry ctx m := by
  induction h with
  | refl =>
    cases entry with
    | view name =>
      refine MissesPages.call ?_
      rintro _ ⟨⟩
      exact .entry rfl
    | source text =>
      rw [Renderer.start]
      cases hcheck : e.renderer.check Renderer.inlineName
        (parseTemplate e.renderer.options.markers text) with
      | error cause =>
        refine MissesPages.give ?_
        rintro name path ⟨⟩
        unfold Renderer.check at hcheck
        split at hcheck <;> cases hcheck
      | ok parsed => exact MissesPages.within trivial
  | tail hm hstep ih => exact ih.next hm hstep

/-- A view that a render fails for because it is not there was asked for as a page. -/
theorem asked_as_page_of_missing {name path : String}
    (h : (e.render entry ctx).result = .error (.viewNotFound name path)) :
    e.AsksForPage entry ctx name ∧ e.renderer.views name = .error (.notFound path) := by
  have hend := missesPages_of_reaches (e.renderer.reaches_render entry ctx e.cache)
  exact hend.missing name path (congrArg _ h)

/-! ## Views that cannot be used -/

/-- The view that an include names, wherever it is rendered, is one of those that were asked for. -/
theorem asked_of_reaches {mode : SectionMode} {view : Expr} {loc : Location}
    (hm : e.renderer.Reaches (e.renderer.start entry ctx e.cache) m)
    (hcall : m.control = .call (.node mode (.includeView view loc)))
    (hname : e.renderer.evaluator.output m.store.context view ≠ "") :
    ∃ q ∈ (e.render entry ctx).requests,
      q.view = e.renderer.evaluator.output m.store.context view := by
  obtain ⟨control, pending, s⟩ := m
  cases hcall
  let name := e.renderer.evaluator.output s.context view
  have hnext : e.renderer.Reaches ⟨.call (.node mode (.includeView view loc)), pending, s⟩
      (e.renderer.begin (.inclusion name) pending s) := .tail (.single rfl) rfl
  have hend := Renderer.reaches_end (e.renderer.reaches_render entry ctx e.cache) rfl (hm.trans hnext)
  have hmem : ⟨name, s.stack, s.sections⟩ ∈
      (e.renderer.begin (.inclusion name) pending s).store.asked := by
    have hasked : (e.renderer.beginInclusion name pending s).store.asked = (s.ask name).asked :=
      Renderer.asked_beginInclusion hname
    exact hasked ▸ List.mem_cons_self
  obtain ⟨q, hq, hasked⟩ := List.mem_map.1 (Renderer.asked_subset_of_reaches hend hmem)
  exact ⟨q, hq, congrArg Asked.view hasked⟩

/-- Once a view was asked for that is not loaded and is not just missing, the result is the error for
which it is not loaded. -/
def Reports (r : Renderer) (m : Machine) : Prop :=
  ∀ a ∈ m.store.asked, ∀ err, r.loaded a.view = .error err →
    (∀ view path, err ≠ .viewNotFound view path) → m.control = .result (.error err)

theorem Reports.next {r : Renderer} (hkept : (new r).Kept m.store.cache) (h : Reports r m)
    (hnext : r.next? m = some m') : Reports r m' := by
  intro a ha err hload herr
  rcases Renderer.asked_next hnext with heq | ⟨c, name, hcall, hasks, heq⟩
  · rw [heq] at ha
    exact Renderer.control_next (h a ha err hload herr) hnext
  · rw [heq] at ha
    rcases List.mem_cons.1 ha with rfl | hold
    · exact Renderer.control_of_asks hkept hcall hasks hload herr hnext
    · exact Renderer.control_next (h a hold err hload herr) hnext

theorem reports_of_reaches {r : Renderer} (h : r.Reaches (r.start entry ctx []) m) : Reports r m := by
  induction h with
  | refl =>
    have hnone : (r.start entry ctx []).store.asked = [] := by
      cases entry with
      | view name => rfl
      | source text =>
        rw [Renderer.start]
        cases r.check Renderer.inlineName (parseTemplate r.options.markers text) <;> rfl
    intro a ha
    rw [hnone] at ha
    cases ha
  | tail hm hstep ih => exact ih.next (ordered_of_reaches (e := new r) hm).sound.kept hstep

/-- A view that is there and is not loaded ends the render, wherever it is asked for. -/
theorem result_of_asked {r : Renderer} {q : Request}
    (hq : q ∈ ((new r).render entry ctx).requests) (hload : r.loaded q.view = .error err)
    (herr : ∀ view path, err ≠ .viewNotFound view path) :
    ((new r).render entry ctx).result = .error err := by
  have hend := reports_of_reaches (r.reaches_render entry ctx [])
  have hcontrol := hend q.asked (List.mem_map_of_mem hq) err hload herr
  injection hcontrol

end Engine

end Templating
