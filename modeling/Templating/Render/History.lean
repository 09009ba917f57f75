import Templating.Render.Engine

/-!
# What happens to an engine

Between renders a host changes views, options and the rest of its set-up. A `Step` is one such
change or one render, and `Engine.outcomes` are the outcomes of the renders of a list of steps, all
on one engine. What is set up after a step is said on its own (`Renderer.after`), so that
`Renderer.freshOutcomes` can do each render on an engine that is made for it, in which nothing is
parsed yet.
-/

namespace Templating

def Views.put (views : Views) (name : String) (view : ViewSource) : Views := fun other =>
  if other = name then .ok view else views other

/-- The views without one of them; asked for it, they answer with an error. -/
def Views.drop (views : Views) (name : String) (error : LoadError) : Views := fun other =>
  if other = name then .error error else views other

/-- One thing that a host does with an engine. An edit may change any number of views. -/
inductive Step where
  | editViews (edit : Views → Views)
  | setOptions (options : RenderOptions)
  | setHost (evaluator : Evaluator) (formField : String) (assets : Assets)
  | render (view : String) (data : Value)
  | renderWith (view : String) (ctx : Context)
  | renderSource (source : String) (ctx : Context)

namespace Engine

/-- Sets the functions, the session, the form field and the assets. The cache stays: what a source
is parsed to does not depend on them. -/
def withHost (e : Engine) (evaluator : Evaluator) (formField : String) (assets : Assets) : Engine :=
  { e with renderer :=
    { e.renderer with evaluator := evaluator, formField := formField, assets := assets } }

/-- The engine after a step, and the outcome of the step if it is a render. -/
def perform (e : Engine) : Step → Engine × Option Outcome
  | .editViews edit => (e.withViews (edit e.renderer.views), none)
  | .setOptions options => (e.withOptions options, none)
  | .setHost evaluator formField assets => (e.withHost evaluator formField assets, none)
  | .render view data =>
    let o := e.renderView view (Context.ofValue data)
    (o.engine, some o)
  | .renderWith view ctx =>
    let o := e.renderView view ctx
    (o.engine, some o)
  | .renderSource source ctx =>
    let o := e.renderSource source ctx
    (o.engine, some o)

def outcomes (e : Engine) : List Step → List Outcome
  | [] => []
  | step :: steps => (e.perform step).2.toList ++ outcomes (e.perform step).1 steps

end Engine

def Step.render? : Step → Option (Entry × Context)
  | .editViews _ | .setOptions _ | .setHost _ _ _ => none
  | .render view data => some (.view view, Context.ofValue data)
  | .renderWith view ctx => some (.view view, ctx)
  | .renderSource source ctx => some (.source source, ctx)

/-- What is set up after a step. -/
def Renderer.after (r : Renderer) : Step → Renderer
  | .editViews edit => { r with views := edit r.views }
  | .setOptions options => { r with options := options }
  | .setHost evaluator formField assets =>
    { r with evaluator := evaluator, formField := formField, assets := assets }
  | .render _ _ | .renderWith _ _ | .renderSource _ _ => r

/-- The outcomes of the renders among the steps, each on a new engine with what is set up then. -/
def Renderer.freshOutcomes (r : Renderer) : List Step → List Outcome
  | [] => []
  | step :: steps =>
    (step.render?.map fun (entry, ctx) => (Engine.new r).render entry ctx).toList ++
      freshOutcomes (r.after step) steps

def Renderer.loadsOf (r : Renderer) (requests : List Request) : List (String × String) :=
  requests.filterMap fun q =>
    match r.views q.view with
    | .ok view => some (q.view, view.source)
    | .error _ => none

namespace Outcome

/-- What the host sees of a render: its text or error, and the context it leaves. -/
def reply (o : Outcome) : Except RenderError String × Context :=
  (o.result, o.context)

def loads (o : Outcome) : List (String × String) :=
  o.engine.renderer.loadsOf o.requests

end Outcome

theorem Renderer.mem_loadsOf {r : Renderer} {requests : List Request} {q : Request}
    {view : ViewSource} (hq : q ∈ requests) (hv : r.views q.view = .ok view) :
    (q.view, view.source) ∈ r.loadsOf requests :=
  List.mem_filterMap.2 ⟨q, hq, by simp [hv]⟩

end Templating
