import Templating.Expr.Eval
import Templating.Host.Assets
import Templating.Host.Views
import Templating.Render.Error
import Templating.Template.Parser

/-!
# Renderers and their state

A `Renderer` is what a host sets up once: views, functions, session, tags and options. A render
changes a `RenderState`: the context, in which loops bind their names, the cache of parsed views,
and the list of views that were asked for. The state also stays as it is when a render fails, so a
context shows the bindings made up to then.

Where a render stands is not state: a `Frame` is handed down, and what is entered below never shows
beside it.
-/

namespace Templating

structure RenderOptions where
  strict : Bool
  maxDepth : Nat
  markers : Markers

def RenderOptions.standard : RenderOptions := ⟨false, 64, Markers.standard⟩

/-- What a host sets up for its renders. `formField` is the markup of a form token, and `fingerprint`
tells sources of one view apart. -/
structure Renderer where
  views : Views
  evaluator : Evaluator
  formField : String
  assets : Assets
  options : RenderOptions
  fingerprint : String → UInt64

/-- A lenient renderer of views in memory, without functions, a session, a form field or assets. -/
def Renderer.ofSources (sources : Entries String) : Renderer where
  views := Views.inMemory sources
  evaluator := ⟨Registry.empty, Session.empty⟩
  formField := ""
  assets := .absent
  options := RenderOptions.standard
  fingerprint := fun source => source.length.toUInt64

/-- What `@section` blocks do in a view: they are set aside for the layout, or they stand where they
are written. -/
inductive SectionMode where
  | setAside
  | inPlace
deriving DecidableEq, Repr

/-- Where a render stands: the views in progress, the innermost first, the sections that views
further out have handed to their layout, what becomes of section blocks, and whether the context is
a copy, so that bindings do not reach the caller. -/
structure Frame where
  chain : List String
  sections : Entries String
  mode : SectionMode
  detached : Bool

def Frame.outermost : Frame := ⟨[], [], .setAside, false⟩

def Frame.detach (f : Frame) : Frame :=
  { f with detached := true }

inductive Route where
  | entry
  | layout
  | inclusion
deriving DecidableEq, Repr

structure Request where
  view : String
  route : Route
  frame : Frame

/-- Parsed views by name, each with the fingerprint of the source it was parsed from. -/
abbrev Cache := Entries (UInt64 × Parsed)

/-- What a render changes. `requests` has the latest request first. -/
structure RenderState where
  context : Context
  cache : Cache
  requests : List Request

/-- A computation that changes the state and may fail; a failure keeps the state. -/
abbrev Render (α : Type) := ExceptT RenderError (StateM RenderState) α

namespace Render

def context : Render Context := do
  return (← get).context

def bindName (name : String) (value : Value) : Render Unit :=
  modify fun s => { s with context := s.context.bind name value }

def note (request : Request) : Render Unit :=
  modify fun s => { s with requests := request :: s.requests }

/-- Runs `act` in a context of its own; the context of before comes back, whatever happens. -/
def detached {α : Type} (ctx : Context) (act : Render α) : Render α := fun s =>
  let (result, s') := act { s with context := ctx }
  (result, { s' with context := s.context })

end Render

namespace Renderer

def loadError (name : String) : LoadError → RenderError
  | .notFound path => .viewNotFound name path
  | .unreadable path cause => .unreadable name path cause

def check (r : Renderer) (name : String) (parsed : Parsed) : Except RenderError Parsed :=
  if r.options.strict && !parsed.errors.isEmpty then .error (.invalidTemplate name parsed.errors)
  else .ok parsed

/-- The parsed form of a source, taken from the cache while the source of the view stays the same,
and the cache afterwards. -/
def parseCached (r : Renderer) (name source : String) (cache : Cache) : Parsed × Cache :=
  let mark := r.fingerprint source
  match Entries.find? name cache with
  | some (old, parsed) =>
    if old = mark then (parsed, cache)
    else
      let parsed := parseTemplate r.options.markers source
      (parsed, Entries.insert name (mark, parsed) cache)
  | none =>
    let parsed := parseTemplate r.options.markers source
    (parsed, Entries.insert name (mark, parsed) cache)

def load (r : Renderer) (name : String) : Render Parsed := fun s =>
  match r.views name with
  | .error e => (.error (loadError name e), s)
  | .ok view =>
    let (parsed, cache) := r.parseCached name view.source s.cache
    (r.check name parsed, { s with cache := cache })

end Renderer

end Templating
