import Templating.Render.Tree

/-!
# Rendering views and pages

A view is entered when it is included, rendered as a page, or extended by a page. Entering fails
when the view is already in progress and when no level is left; `levels` is how many more views may
be entered, so the recursion between views ends with it.

A page that extends a layout has three parts: its body, its sections, and the layout, which is a
page itself and renders in a copy of the context. The sections of pages further out come first, then
those of this page, the first of each name; the body stands in for a missing section `content`.
-/

namespace Templating

inductive Section where
  | block (name : String) (body : List Node)
  | value (name : String) (expr : Expr)

/-- The name of the section that the body of a page can stand in for. -/
def contentName : String := "content"

namespace Section

def name : Section → String
  | .block name _ => name
  | .value name _ => name

mutual

def ofNode : Node → List Section
  | .sectionBlock name body _ => .block name body :: ofNodes body
  | .sectionValue name expr _ => [.value name expr]
  | .conditional _ consequent none _ => ofNodes consequent
  | .conditional _ consequent (some alternate) _ => ofNodes consequent ++ ofNodes alternate
  | .loop _ _ _ body _ => ofNodes body
  | .errorBlock _ body _ _ => ofNodes body
  | _ => []

def ofNodes : List Node → List Section
  | [] => []
  | n :: ns => ofNode n ++ ofNodes ns

end

end Section

namespace Node

mutual

def layout? : Node → Option String
  | .extendsLayout layout _ => some layout
  | .sectionBlock _ body _ => firstLayout? body
  | .conditional _ consequent none _ => firstLayout? consequent
  | .conditional _ consequent (some alternate) _ =>
    (firstLayout? consequent).or (firstLayout? alternate)
  | .loop _ _ _ body _ => firstLayout? body
  | .errorBlock _ body _ _ => firstLayout? body
  | _ => none

def firstLayout? : List Node → Option String
  | [] => none
  | n :: ns => (layout? n).or (firstLayout? ns)

end

end Node

namespace Renderer

/-- The views from `name` on and `name` again, in the order in which they were entered. -/
def cycleOf (chain : List String) (name : String) : List String :=
  name :: (chain.takeWhile (· ≠ name)).reverse ++ [name]

/-- The frame inside a view that is entered from `f`; a view in progress cannot be entered. -/
def enterFrame (f : Frame) (name : String) : Except RenderError Frame :=
  if name ∈ f.chain then .error (.circular (cycleOf f.chain name))
  else .ok { f with chain := name :: f.chain }

/-- Loads an included view; one that is not there is no error. -/
def loadIncluded (r : Renderer) (name : String) : Render (Option Parsed) := fun s =>
  match r.load name s with
  | (.error (.viewNotFound _ _), s) => (.ok none, s)
  | (.error e, s) => (.error e, s)
  | (.ok parsed, s) => (.ok (some parsed), s)

def renderInclude (r : Renderer) (levels : Nat) : Enter := fun f name => do
  if name = "" then return ""
  Render.note ⟨name, .inclusion, f⟩
  match ← r.loadIncluded name with
  | none => return ""
  | some parsed =>
    let inner ← enterFrame f name
    match levels with
    | 0 => throw (.depthExceeded r.options.maxDepth)
    | levels + 1 =>
      r.renderNodes (renderInclude r levels) { inner with mode := .inPlace } parsed.root.children

def renderSection (r : Renderer) (enter : Enter) (f : Frame) : Section → Render String
  | .block _ body => r.renderNodes enter f body
  | .value _ expr => return r.evaluator.output (← Render.context) expr

/-- The texts of sections, each name once: the first section of a name is the one. -/
def renderSections (r : Renderer) (enter : Enter) (f : Frame) :
    Entries String → List Section → Render (Entries String)
  | done, [] => return done
  | done, s :: ss => do
    if Entries.contains s.name done then renderSections r enter f done ss
    else
      let text ← r.renderSection enter f s
      renderSections r enter f (Entries.insert s.name text done) ss

/-- The sections that a page hands to its layout: its own, overridden by those it was handed, and
the body for a missing `content`. -/
def handSections (handed own : Entries String) (body : String) : Entries String :=
  let all := Entries.insertAll own handed
  if Entries.contains contentName all then all else Entries.insert contentName body all

def layoutContext (ctx : Context) (sections : Entries String) : Context :=
  sections.foldl (fun ctx (name, text) => ctx.bind name (.text text)) ctx

/-- The text of the template of a page. `enter` renders what it includes and `layout` the layout it
extends. -/
def renderRoot (r : Renderer) (enter layout : Enter) (f : Frame) (root : Root) :
    Render String := do
  let f := { f with mode := .setAside }
  let body ← r.renderNodes enter f root.children
  match Node.firstLayout? root.children with
  | none => return body
  | some name =>
    let own ← r.renderSections enter f [] (Section.ofNodes root.children)
    let sections := handSections f.sections own body
    let ctx ← Render.context
    Render.detached (layoutContext ctx sections)
      (layout { f.detach with sections := sections } name)

/-- The text of a view that is rendered as a page, with `levels` more views to enter. -/
def renderPage (r : Renderer) (route : Route) (levels : Nat) : Enter := fun f name => do
  Render.note ⟨name, route, f⟩
  let parsed ← r.load name
  let inner ← enterFrame f name
  match levels with
  | 0 => throw (.depthExceeded r.options.maxDepth)
  | levels + 1 =>
    r.renderRoot (r.renderInclude levels) (renderPage r .layout levels) inner parsed.root

def inlineName : String := "<inline>"

def renderView (r : Renderer) (name : String) : Render String :=
  r.renderPage .entry r.options.maxDepth Frame.outermost name

def renderSource (r : Renderer) (source : String) : Render String := do
  let parsed ← r.check inlineName (parseTemplate r.options.markers source)
  r.renderRoot (r.renderInclude r.options.maxDepth) (r.renderPage .layout r.options.maxDepth)
    Frame.outermost parsed.root

end Renderer

end Templating
