import Templating.Render.Page

/-!
# Engines

An engine is a renderer together with the views it has parsed so far. Renders may be asked of it one
after another; each gives back the engine with what it has parsed meanwhile.
-/

namespace Templating

/-- What a render is asked for: a view, or a template that is no view. -/
inductive Entry where
  | view (name : String)
  | source (text : String)
deriving DecidableEq, Repr

def Renderer.render (r : Renderer) : Entry → Render String
  | .view name => r.renderView name
  | .source text => r.renderSource text

structure Engine where
  renderer : Renderer
  cache : Cache

/-- What a render leaves behind: its text or error, the context, the engine, and the views that were
asked for, the latest first. -/
structure Outcome where
  result : Except RenderError String
  context : Context
  engine : Engine
  requests : List Request

namespace Engine

def new (r : Renderer) : Engine := ⟨r, []⟩

/-- Sets the options. Views are parsed anew, because the delimiters may be others. -/
def withOptions (e : Engine) (options : RenderOptions) : Engine :=
  new { e.renderer with options := options }

/-- Sets the views. What is in the cache stays: it is used only for the source it was parsed from.
-/
def withViews (e : Engine) (views : Views) : Engine :=
  { e with renderer := { e.renderer with views := views } }

def run (e : Engine) (act : Renderer → Render String) (ctx : Context) : Outcome :=
  let (result, s) := act e.renderer ⟨ctx, e.cache, []⟩
  ⟨result, s.context, { e with cache := s.cache }, s.requests⟩

def renderView (e : Engine) (name : String) (ctx : Context) : Outcome :=
  e.run (·.renderView name) ctx

def renderSource (e : Engine) (source : String) (ctx : Context) : Outcome :=
  e.run (·.renderSource source) ctx

def render (e : Engine) (entry : Entry) (ctx : Context) : Outcome :=
  e.run (·.render entry) ctx

end Engine

end Templating
