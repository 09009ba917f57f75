import Templating.Proofs.Render.Bindings

/-!
# Strict and lenient renders

A strict renderer refuses templates with errors, a lenient one renders what was recovered from them.
That is all the difference: until the strict render loads a view with errors the two keep step, and
loading one ends the strict render with just these errors, wherever the view was asked for
(`strict_reply_eq_lenient`). Between the two a view is parsed in the same way.
-/

namespace Templating

namespace Renderer

def withStrict (r : Renderer) (strict : Bool) : Renderer :=
  { r with options := { r.options with strict := strict } }

def errorsOf? (r : Renderer) (view : String) : Option (List TemplateError) :=
  match r.views view with
  | .ok v => some (parseTemplate r.options.markers v.source).errors
  | .error _ => none

def inlineErrors (r : Renderer) : Entry → List TemplateError
  | .view _ => []
  | .source text => (parseTemplate r.options.markers text).errors

/-- The errors for which a strict render of an entry can be refused, with the name they are reported
under: those of a view that has some, or those of the template that is rendered. -/
def Refuses (r : Renderer) (entry : Entry) (name : String) (errors : List TemplateError) : Prop :=
  errors ≠ [] ∧ (r.errorsOf? name = some errors ∨
    name = inlineName ∧ errors = r.inlineErrors entry)

theorem check_of_errors_eq_nil (r : Renderer) {name : String} {parsed : Parsed}
    (h : parsed.errors = []) : r.check name parsed = .ok parsed := by
  simp [check, h]

theorem check_withStrict_false (r : Renderer) (name : String) (parsed : Parsed) :
    (r.withStrict false).check name parsed = .ok parsed := by
  simp [check, withStrict]

theorem check_withStrict_true (r : Renderer) (name : String) {parsed : Parsed}
    (h : parsed.errors ≠ []) :
    (r.withStrict true).check name parsed = .error (.invalidTemplate name parsed.errors) := by
  simp [check, withStrict, h]

theorem render_source_of_check (r : Renderer) {text : String} {e : RenderError}
    (h : r.check inlineName (parseTemplate r.options.markers text) = .error e) (s : RenderState) :
    r.render (.source text) s = (.error e, s) := by
  rw [render, renderSource, h]
  rfl

end Renderer

namespace Engine

theorem kept_new (r : Renderer) : (new r).Kept [] :=
  fun _ _ _ => rfl

theorem Kept.parse_eq {r : Renderer} {cache : Cache} {name : String} {view : ViewSource}
    (h : (new r).Kept cache) (hv : r.views name = .ok view) :
    (r.parseCached name view.source cache).1 = parseTemplate r.options.markers view.source :=
  h name view hv

end Engine

theorem Render.failure?_eq_some {α : Type} {result : Except RenderError α} {e : RenderError}
    (h : failure? result = some e) : result = .error e := by
  cases result with
  | ok a => cases h
  | error e' => exact congrArg _ (Option.some.inj h)

/-- A strict render and a lenient one. They are off once the strict one was refused for the errors
of a view. -/
def strictLink (r : Renderer) : Link (r.withStrict true) (r.withStrict false) where
  records := fun record record' =>
    (Engine.new r).Kept record.1 ∧ (Engine.new r).Kept record'.1
  off := fun e _ => ∃ name errors, e = some (.invalidTemplate name errors) ∧ errors ≠ [] ∧
    r.errorsOf? name = some errors
  off_error := by
    rintro _ ⟨name, errors, h, -⟩ e
    cases h

theorem strictLink_loading (r : Renderer) : (strictLink r).Loading := by
  have hviews : ∀ strict, (r.withStrict strict).views = r.views := fun _ => rfl
  have hparse : ∀ strict, (r.withStrict strict).parseCached = r.parseCached := fun _ => rfl
  refine .of_outer_eq_nil rfl (fun q => ⟨?_, ?_⟩) ?_
  · rintro s ⟨name, errors, h, -⟩
    cases h
  · rintro s s' ⟨hc, hrecords⟩
    obtain ⟨hkept, hkept'⟩ : (Engine.new r).Kept s.cache ∧ (Engine.new r).Kept s'.cache := hrecords
    cases hv : r.views q.view with
    | error e =>
      rw [note_load_of_error (hviews true ▸ hv), note_load_of_error (hviews false ▸ hv)]
      exact .inr ⟨rfl, hc, hkept, hkept'⟩
    | ok view =>
      rw [note_load_of_ok (hviews true ▸ hv), note_load_of_ok (hviews false ▸ hv), hparse, hparse,
        hkept.parse_eq hv, hkept'.parse_eq hv, r.check_withStrict_false]
      by_cases herrors : (parseTemplate r.options.markers view.source).errors = []
      · right
        rw [(r.withStrict true).check_of_errors_eq_nil herrors]
        exact ⟨rfl, hc, hkept.parseCached hv, hkept'.parseCached hv⟩
      · left
        rw [r.check_withStrict_true q.view herrors]
        exact ⟨q.view, _, rfl, herrors, by rw [Renderer.errorsOf?, hv]⟩
  · rintro name path record ⟨_, _, h, -⟩
    cases h

/-- Until a template with errors is loaded, a strict render and a lenient one are the same. -/
theorem tracks_strictLink {r : Renderer} {entry : Entry} (h : r.inlineErrors entry = []) :
    (strictLink r).Tracks ((r.withStrict true).render entry) ((r.withStrict false).render entry) := by
  refine (strictLink_loading r).tracks_render rfl (.inl ⟨rfl, rfl⟩) entry ?_
  rintro text rfl
  have hparsed : (parseTemplate (r.withStrict true).options.markers text).errors = [] := h
  rw [Renderer.check_of_errors_eq_nil _ hparsed, r.check_withStrict_false]
  exact .lift _

/-- A strict render and a lenient one of the same entry, both by new engines, give the same text or
error and leave the same context, or the strict one is refused for the errors of a view that it
loads, all of them as parsing gives them, or for those of the template that it is to render. So they
do the same when no template has errors. -/
theorem strict_reply_eq_lenient (r : Renderer) (entry : Entry) (ctx : Context) :
    let strict := (Engine.new (r.withStrict true)).render entry ctx
    let lenient := (Engine.new (r.withStrict false)).render entry ctx
    (strict.reply = lenient.reply ∨ ∃ name errors,
      strict.result = .error (.invalidTemplate name errors) ∧ r.Refuses entry name errors) ∧
    ((∀ name errors, r.errorsOf? name = some errors → errors = []) →
      r.inlineErrors entry = [] → strict.reply = lenient.reply) := by
  intro strict lenient
  have hagree : strict.reply = lenient.reply ∨ ∃ name errors,
      strict.result = .error (.invalidTemplate name errors) ∧ r.Refuses entry name errors := by
    by_cases hinline : r.inlineErrors entry = []
    · rcases (tracks_strictLink hinline).agree ⟨ctx, [], []⟩ ⟨ctx, [], []⟩
        ⟨rfl, Engine.kept_new r, Engine.kept_new r⟩ with
        ⟨name, errors, hfail, hne, herrors⟩ | ⟨hresult, hholds⟩
      · exact .inr ⟨name, errors, Render.failure?_eq_some hfail, hne, .inl herrors⟩
      · exact .inl (Prod.ext hresult hholds.contexts)
    · cases entry with
      | view name => exact absurd rfl hinline
      | source text =>
        have hresult : strict.result =
            .error (.invalidTemplate Renderer.inlineName (r.inlineErrors (.source text))) := by
          have hcheck := r.check_withStrict_true Renderer.inlineName hinline
          exact congrArg Prod.fst ((r.withStrict true).render_source_of_check hcheck ⟨ctx, [], []⟩)
        exact .inr ⟨_, _, hresult, hinline, .inr ⟨rfl, rfl⟩⟩
  refine ⟨hagree, fun hviews hinline => hagree.resolve_right ?_⟩
  rintro ⟨name, errors, -, hne, herrors | ⟨-, rfl⟩⟩
  · exact hne (hviews name errors herrors)
  · exact hne hinline

/-- A view that includes another one in a loop; neither has errors. -/
def listRenderer : Renderer :=
  .ofSources [("list", "@foreach(['a', 'b'] as $x)@include('item')@endforeach"),
    ("item", "<{{ $x }}>")]

theorem errors_listRenderer (name : String) (errors : List TemplateError)
    (h : listRenderer.errorsOf? name = some errors) : errors = [] := by
  by_cases hlist : name = "list"
  · subst hlist
    have hnone : listRenderer.errorsOf? "list" = some [] := by cbv
    exact (Option.some.inj (hnone.symm.trans h)).symm
  · by_cases hitem : name = "item"
    · subst hitem
      have hnone : listRenderer.errorsOf? "item" = some [] := by cbv
      exact (Option.some.inj (hnone.symm.trans h)).symm
    · simp [listRenderer, Renderer.ofSources, Renderer.errorsOf?, Views.inMemory,
        Entries.find?_cons, Ne.symm hlist, Ne.symm hitem] at h

theorem strict_reply_eq_lenient_list :
    (∀ name errors, listRenderer.errorsOf? name = some errors → errors = []) ∧
      listRenderer.inlineErrors (.view "list") = [] ∧
      ((Engine.new (listRenderer.withStrict true)).render (.view "list") Context.empty).reply =
        ((Engine.new (listRenderer.withStrict false)).render (.view "list") Context.empty).reply :=
  ⟨errors_listRenderer, rfl,
    (strict_reply_eq_lenient listRenderer (.view "list") Context.empty).2 errors_listRenderer rfl⟩

end Templating
