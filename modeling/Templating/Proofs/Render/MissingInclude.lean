import Templating.Proofs.Render.DepthLimit
import Templating.Proofs.Render.Failures
import Templating.Proofs.Template.Builder
import Templating.Proofs.Template.Partition

/-!
# A missing include is an empty view

A renderer without a view and one that has it with an empty source take the same steps, apart from
where the view is asked for (`next_withView`). For an include the second one enters the view and
leaves it again with an empty text, if there is a level left; as a page the first one fails. What the
two record of the views that they parse and ask for is different from there on, and no step sees it.
-/

namespace Templating

theorem parseTemplate_empty (m : Markers) :
    (parseTemplate m "").root.children = [] ∧ (parseTemplate m "").errors = [] := by
  have hsource : "" = String.ofList [] := rfl
  have hearly : Token.errors m [] = [] := by
    rw [Token.errors, errors_scan, Token.errorsOfPieces, Piece.pieces_nil]
    rfl
  rw [hsource]
  simp only [parseTemplate, String.toList_ofList, parseTokens_eq_build, hearly]
  rw [Token.tokens_eq_ofPieces, Token.ofPieces, Piece.pieces_nil]
  exact ⟨rfl, rfl⟩

namespace Renderer

open Machine

variable {r : Renderer} {name view path place : String} {v : ViewSource} {pending : List Pending}
  {s : Store} {cache : Cache} {asked : List Asked} {m m' : Machine}

theorem loaded_withView_of_ne (h : view ≠ name) : (r.withView name v).loaded view = r.loaded view := by
  have hviews : (r.withView name v).views view = r.views view := if_neg h
  rw [loaded, loaded, hviews]
  rfl

theorem loaded_withView_empty (r : Renderer) (name place : String) :
    (r.withView name ⟨place, ""⟩).loaded name = .ok (parseTemplate r.options.markers "") := by
  have hviews : (r.withView name ⟨place, ""⟩).views name = .ok ⟨place, ""⟩ := if_pos rfl
  rw [loaded, hviews]
  exact check_of_errors_eq_nil _ (parseTemplate_empty _).2

theorem loaded_of_errors {errors : List TemplateError} (hstrict : r.options.strict = true)
    (h : r.errorsOf? name = some errors) (hne : errors ≠ []) :
    r.loaded name = .error (.invalidTemplate name errors) := by
  unfold errorsOf? at h
  unfold loaded
  cases hview : r.views name with
  | error cause =>
    rw [hview] at h
    cases h
  | ok v =>
    rw [hview] at h
    cases h
    have hrefused : (r.options.strict && !(parseTemplate r.options.markers v.source).errors.isEmpty) =
        true := by simp [hstrict, hne]
    exact if_pos hrefused

theorem enter_withRecord (view : String) (inside : Call) :
    (r.withView name v).enter view inside pending (s.withRecord cache asked) =
      (r.enter view inside pending s).withRecord cache asked := by
  unfold enter
  rw [apply_ite fun m : Machine => m.withRecord cache asked,
    apply_ite fun m : Machine => m.withRecord cache asked]
  rfl

section Steps

variable (pending asked) (hkept : (Engine.new r).Kept s.cache)
  (hkept' : (Engine.new (r.withView name v)).Kept cache)

include hkept hkept'

theorem fetch_withView (hloaded : (r.withView name v).loaded view = r.loaded view) :
    ((r.withView name v).fetch view cache).1 = (r.fetch view s.cache).1 := by
  rw [fetch_eq_loaded hkept', hloaded, fetch_eq_loaded hkept]

theorem beginPage_withView (hloaded : (r.withView name v).loaded view = r.loaded view) :
    ∃ cache' asked', (r.withView name v).beginPage view pending (s.withRecord cache asked) =
      (r.beginPage view pending s).withRecord cache' asked' := by
  have hfetch := fetch_withView hkept hkept' hloaded
  have hstore : (s.withRecord cache asked).cache = cache := rfl
  unfold beginPage
  rw [hstore]
  generalize (r.withView name v).fetch view cache = fetched' at hfetch ⊢
  generalize r.fetch view s.cache = fetched at hfetch ⊢
  obtain ⟨found, cache'⟩ := fetched'
  obtain ⟨_, _⟩ := fetched
  obtain rfl := hfetch
  refine ⟨cache', ((s.withRecord cache asked).ask view).asked, ?_⟩
  cases found with
  | error cause => rfl
  | ok parsed => exact enter_withRecord (s := { s.ask view with cache := _ }) view _

theorem beginInclusion_withView (hview : view ≠ "")
    (hloaded : (r.withView name v).loaded view = r.loaded view) :
    ∃ cache' asked', (r.withView name v).beginInclusion view pending (s.withRecord cache asked) =
      (r.beginInclusion view pending s).withRecord cache' asked' := by
  have hfetch := fetch_withView hkept hkept' hloaded
  have hstore : (s.withRecord cache asked).cache = cache := rfl
  rw [beginInclusion, beginInclusion, if_neg hview, if_neg hview, hstore]
  generalize (r.withView name v).fetch view cache = fetched' at hfetch ⊢
  generalize r.fetch view s.cache = fetched at hfetch ⊢
  obtain ⟨found, cache'⟩ := fetched'
  obtain ⟨_, _⟩ := fetched
  obtain rfl := hfetch
  refine ⟨cache', ((s.withRecord cache asked).ask view).asked, ?_⟩
  cases found with
  | error cause => cases cause <;> rfl
  | ok parsed => exact enter_withRecord (s := { s.ask view with cache := _ }) view _

end Steps

theorem beginInclusion_of_missing (hmissing : r.views name = .error (.notFound path))
    (hname : name ≠ "") :
    r.beginInclusion name pending s = give (.ok "") pending (s.ask name) := by
  have hfetch : r.fetch name s.cache = (.error (.viewNotFound name path), s.cache) := by
    unfold fetch load
    rw [hmissing]
    rfl
  rw [beginInclusion, if_neg hname, hfetch]
  rfl

/-- What a renderer that has the empty view and begins at `start` makes of a state `m` of one that does
not have it: it comes to the same state apart from the record, or one of the two has failed, the
renderer without the view because the view is missing, the other one for want of a level. -/
inductive Matches (r : Renderer) (name path place : String) (start m : Machine) : Prop where
  | same {cache : Cache} {asked : List Asked}
      (h : (r.withView name ⟨place, ""⟩).Reaches start (m.withRecord cache asked)) :
      Matches r name path place start m
  | missing (h : m.control = .result (.error (.viewNotFound name path))) :
      Matches r name path place start m
  | exceeded {last : Machine} (h : (r.withView name ⟨place, ""⟩).Reaches start last)
      (hlast : last.control = .result (.error (.depthExceeded r.options.maxDepth))) :
      Matches r name path place start m

theorem Matches.of_reaches {start start' : Machine} (h : Matches r name path place start' m)
    (hstart : (r.withView name ⟨place, ""⟩).Reaches start start') :
    Matches r name path place start m := by
  cases h with
  | same h => exact .same (hstart.trans h)
  | missing h => exact .missing h
  | exceeded h hlast => exact .exceeded (hstart.trans h) hlast

theorem matches_of_empty
    (hkept' : (Engine.new (r.withView name ⟨place, ""⟩)).Kept cache) (hname : name ≠ "")
    (hout : name ∉ s.stack) :
    Matches r name path place (call (.inclusion name) pending (s.withRecord cache asked))
      (give (.ok "") pending (s.ask name)) := by
  let r' := r.withView name ⟨place, ""⟩
  have hfetch := fetch_eq_loaded hkept' name
  rw [loaded_withView_empty] at hfetch
  rcases hboth : r'.fetch name cache with ⟨found, cache'⟩
  obtain rfl : found = .ok (parseTemplate r.options.markers "") :=
    (congrArg Prod.fst hboth).symm.trans hfetch
  let asked' := ((s.withRecord cache asked).ask name).asked
  have hbegin : r'.beginInclusion name pending (s.withRecord cache asked) =
      r'.enter name (.nodes .inPlace [] "") pending (s.withRecord cache' asked') := by
    have hstore : (s.withRecord cache asked).cache = cache := rfl
    rw [beginInclusion, if_neg hname, hstore, hboth]
    simp only [(parseTemplate_empty r.options.markers).1]
    rfl
  have hfirst : r'.Reaches (call (.inclusion name) pending (s.withRecord cache asked))
      (r'.enter name (.nodes .inPlace [] "") pending (s.withRecord cache' asked')) :=
    .single (congrArg some hbegin)
  have hstack : (s.withRecord cache' asked').stack = s.stack := rfl
  have hlimit : r'.options.maxDepth = r.options.maxDepth := rfl
  rw [enter, hstack, hlimit, if_neg hout] at hfirst
  split at hfirst
  · exact .exceeded hfirst rfl
  · -- Inside the view there is nothing to render, so its end is next.
    have hends : r'.Reaches (call (.inclusion name) pending (s.withRecord cache asked))
        ((give (.ok "") pending (s.ask name)).withRecord cache' asked') := (hfirst.tail rfl).tail rfl
    exact .same hends

/-- The next state is matched where the view is not in progress. -/
theorem next_withView (hmissing : r.views name = .error (.notFound path))
    (hkept : (Engine.new r).Kept m.store.cache)
    (hkept' : (Engine.new (r.withView name ⟨place, ""⟩)).Kept cache) (hout : name ∉ m.store.stack)
    (hnext : r.next? m = some m') : Matches r name path place (m.withRecord cache asked) m' := by
  let r' := r.withView name ⟨place, ""⟩
  have hloaded := loaded_of_notFound hmissing
  obtain ⟨control, pending, s⟩ := m
  cases control with
  | call c =>
    cases hnext
    rcases c.cases_within with hc | ⟨view, rfl⟩ | ⟨view, rfl⟩
    · exact .same (.single (congrArg some (begin_withRecord r'.views cache asked hc)))
    · by_cases hview : view = name
      · subst hview
        obtain ⟨t, heq⟩ := beginPage_of_loaded hkept hloaded
        exact .missing (congrArg Machine.control heq)
      · obtain ⟨cache', asked', hstep⟩ :=
          beginPage_withView pending asked hkept hkept' (loaded_withView_of_ne hview)
        exact .same (.single (congrArg some hstep))
    · by_cases hempty : view = ""
      · subst hempty
        have hstep : r'.Reaches (call (.inclusion "") pending (s.withRecord cache asked))
          ((give (.ok "") pending s).withRecord cache asked) := .single rfl
        exact .same hstep
      · by_cases hview : view = name
        · subst hview
          have hstep : r.begin (.inclusion view) pending s = give (.ok "") pending (s.ask view) :=
            beginInclusion_of_missing hmissing hempty
          rw [hstep]
          exact matches_of_empty hkept' hempty hout
        · obtain ⟨cache', asked', hstep⟩ :=
            beginInclusion_withView pending asked hkept hkept' hempty (loaded_withView_of_ne hview)
          exact .same (.single (congrArg some hstep))
  | result result =>
    cases pending with
    | nil => cases hnext
    | cons k pending =>
      cases hnext
      exact .same (.single (congrArg some (resume_withRecord cache asked k result)))

theorem start_withView (r : Renderer) (name : String) (v : ViewSource) (entry : Entry)
    (ctx : Context) :
    (r.withView name v).start entry ctx [] = (r.start entry ctx []).withRecord [] [] := by
  cases entry with
  | view name => rfl
  | source text =>
    have hcheck : (r.withView name v).check inlineName
        (parseTemplate (r.withView name v).options.markers text) =
      r.check inlineName (parseTemplate r.options.markers text) := rfl
    rw [start, start, hcheck]
    cases r.check inlineName (parseTemplate r.options.markers text) <;> rfl

end Renderer

namespace Engine

open Machine

variable {r : Renderer} {entry : Entry} {ctx : Context} {name path : String} {m : Machine}

theorem Entered.loads {e : Engine} {stack : List String} (h : e.Entered entry ctx stack)
    (hmem : name ∈ stack) : e.Loads name := by
  induction stack with
  | nil => cases hmem
  | cons view outer ih =>
    rcases List.mem_cons.1 hmem with rfl | hmem
    · exact h.2.1
    · exact ih h.2.2 hmem

/-- Every state of a run without the view is matched in the run with it. -/
theorem matches_of_reaches (place : String) (hmissing : r.views name = .error (.notFound path))
    (h : r.Reaches (r.start entry ctx []) m) :
    r.Matches name path place ((r.withView name ⟨place, ""⟩).start entry ctx []) m := by
  induction h with
  | refl =>
    rw [Renderer.start_withView]
    exact .same .refl
  | @tail m _ hm hnext ih =>
    cases ih with
    | same hreaches =>
      have hkept := (ordered_of_reaches (e := new r) hm).sound.kept
      have hkept' := (ordered_of_reaches (e := new (r.withView name ⟨place, ""⟩)) hreaches).sound.kept
      -- Only views that are there are entered.
      have hout : name ∉ m.store.stack := by
        intro hmem
        obtain ⟨view, hview⟩ := (traced_of_reaches (e := new r) hm).entered.loads hmem
        have hcontra := hmissing.symm.trans hview
        cases hcontra
      exact (Renderer.next_withView hmissing hkept hkept' hout hnext).of_reaches hreaches
    | missing hm => exact .missing (Renderer.control_next hm hnext)
    | exceeded hreaches hlast => exact .exceeded hreaches hlast

theorem reply_of_reaches {result : Except RenderError String} {s : Store}
    (h : r.Reaches (r.start entry ctx []) (give result [] s)) :
    ((new r).render entry ctx).reply = (result, s.context) := by
  have hend := Renderer.reaches_end (r.reaches_render entry ctx []) rfl h
  rcases hend.cases_head with heq | ⟨_, hnext, -⟩
  · injection heq with hcontrol _ hstore
    injection hcontrol with hresult
    exact Prod.ext hresult.symm (congrArg Store.context hstore).symm
  · cases hnext

theorem render_withView_empty (place : String) (hmissing : r.views name = .error (.notFound path)) :
    let bare := (new r).render entry ctx
    let full := (new (r.withView name ⟨place, ""⟩)).render entry ctx
    bare.reply = full.reply ∨ bare.result = .error (.viewNotFound name path) ∨
      full.result = .error (.depthExceeded r.options.maxDepth) := by
  intro bare full
  have hmatches := matches_of_reaches place hmissing (r.reaches_render entry ctx [])
  cases hmatches with
  | same hreaches => exact .inl (reply_of_reaches hreaches).symm
  | missing hresult =>
    injection hresult with hresult
    exact .inr (.inl hresult)
  | exceeded hreaches hlast =>
    exact .inr (.inr (result_of_reaches (e := new (r.withView name ⟨place, ""⟩)) hreaches hlast))

/-- A missing include is an empty view: a render gives the same text or error and leaves the same
context when the view is added with an empty source, unless it failed because the view is missing or
the other one has no level left for it. A render fails because a view is missing only for a view that
it asked for as a page, the one to render or the layout of a tree. What is wrong with a view that is
there, that it cannot be read or that a strict renderer refuses it, is what the render fails with
wherever it asks for the view, and it asks for the view of every include that it comes to. -/
theorem missing_include_is_empty (r : Renderer) (entry : Entry) (ctx : Context) :
    let bare := (new r).render entry ctx
    (∀ name path place, r.views name = .error (.notFound path) →
      let full := (new (r.withView name ⟨place, ""⟩)).render entry ctx
      bare.reply = full.reply ∨ bare.result = .error (.viewNotFound name path) ∨
        full.result = .error (.depthExceeded r.options.maxDepth)) ∧
    (∀ name path, bare.result = .error (.viewNotFound name path) →
      (new r).AsksForPage entry ctx name ∧ r.views name = .error (.notFound path)) ∧
    (∀ q ∈ bare.requests,
      (∀ path cause, r.views q.view = .error (.unreadable path cause) →
        bare.result = .error (.unreadable q.view path cause)) ∧
      (∀ errors, r.options.strict = true → r.errorsOf? q.view = some errors → errors ≠ [] →
        bare.result = .error (.invalidTemplate q.view errors))) ∧
    ∀ m mode view loc, r.Reaches (r.start entry ctx []) m →
      m.control = .call (.node mode (.includeView view loc)) →
      let name := r.evaluator.output m.store.context view
      name ≠ "" → ∃ q ∈ bare.requests, q.view = name := by
  refine ⟨fun name path place => render_withView_empty place,
    fun name path => asked_as_page_of_missing, fun q hq => ⟨fun path cause hview => ?_,
      fun errors hstrict herrors hne => ?_⟩,
    fun m mode view loc hm hcall => asked_of_reaches (e := new r) hm hcall⟩
  · exact result_of_asked hq (Renderer.loaded_of_unreadable hview) nofun
  · exact result_of_asked hq (Renderer.loaded_of_errors hstrict herrors hne) nofun

/-- A strict renderer with a page that includes a view which is not there, with a view that has an
error, and with one that cannot be read. -/
def gapRenderer : Renderer :=
  { Renderer.ofSources [] with
    views := (Views.inMemory [("page", "a@include('gone')b"), ("stray", "@endif")]).drop "locked"
      (.unreadable "memory:locked" "broken")
    options := { RenderOptions.standard with strict := true } }

theorem missing_include_is_empty_gap :
    let page := (new gapRenderer).render (.view "page") Context.empty
    let full := (new (gapRenderer.withView "gone" ⟨"", ""⟩)).render (.view "page") Context.empty
    let gone := (new gapRenderer).render (.view "gone") Context.empty
    let locked := (new gapRenderer).render (.source "@include('locked')") Context.empty
    let errors := [⟨.unexpectedCloser .endIf, ⟨⟨0, 1, 1⟩, ⟨6, 1, 7⟩⟩⟩]
    let stray := (new gapRenderer).render (.source "@include('stray')") Context.empty
    page.reply = full.reply ∧ page.result = .ok "ab" ∧ (∃ q ∈ page.requests, q.view = "gone") ∧
      gone.result = .error (.viewNotFound "gone" "memory:gone") ∧
      (new gapRenderer).AsksForPage (.view "gone") Context.empty "gone" ∧
      locked.result = .error (.unreadable "locked" "memory:locked" "broken") ∧
      gapRenderer.errorsOf? "stray" = some errors ∧
      stray.result = .error (.invalidTemplate "stray" errors) := by
  intro page full gone locked errors stray
  have hpage : page.result = .ok "ab" := by cbv
  have hfull : full.result = .ok "ab" := by cbv
  have hgone : gone.result = .error (.viewNotFound "gone" "memory:gone") := by cbv
  have hlocked : locked.requests = [⟨"locked", .inclusion, Frame.outermost⟩] := by cbv
  have hstray : stray.requests = [⟨"stray", .inclusion, Frame.outermost⟩] := by cbv
  have hinclude : (gapRenderer.run 6 (gapRenderer.start (.view "page") Context.empty [])).control =
      .call (.node .setAside (.includeView (.text "gone") ⟨⟨1, 1, 2⟩, ⟨17, 1, 18⟩⟩)) := by cbv
  have hname : "gone" ≠ "" := by decide
  obtain ⟨hempty, -, -, hasks⟩ := missing_include_is_empty gapRenderer (.view "page") Context.empty
  have hpages := (missing_include_is_empty gapRenderer (.view "gone") Context.empty).2.1
  have hunreadable :=
    (missing_include_is_empty gapRenderer (.source "@include('locked')") Context.empty).2.2.1
  have hrefused :=
    (missing_include_is_empty gapRenderer (.source "@include('stray')") Context.empty).2.2.1
  have herrors : gapRenderer.errorsOf? "stray" = some errors := by cbv
  refine ⟨?_, hpage, hasks _ _ _ _ (Renderer.reaches_run _ _ _) hinclude hname, hgone, (hpages _ _ hgone).1,
    (hunreadable _ (hlocked ▸ List.mem_cons_self)).1 _ _ (by cbv), herrors,
    (hrefused _ (hstray ▸ List.mem_cons_self)).2 _ rfl herrors (List.cons_ne_nil _ _)⟩
  rcases hempty "gone" "memory:gone" "" (by cbv) with heq | hmissing | hexceeded
  · exact heq
  · rw [hpage] at hmissing
    cases hmissing
  · rw [hfull] at hexceeded
    cases hexceeded

end Engine

end Templating
