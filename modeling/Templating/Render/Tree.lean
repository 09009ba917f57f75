import Templating.Render.State

/-!
# Rendering trees

The text of nodes in a frame. Other views are entered through `enter`, which is given the frame and
the name, so these functions only walk the tree they are given: a loop renders its body once for
each entry that its source had when the loop began.
-/

namespace Templating

abbrev Enter := Frame → String → Render String

def Value.loopEntries : Value → List (Value × Value)
  | .list items => items.zipIdx.map fun (item, index) => (.nat index, item)
  | .map entries => entries.map fun (key, item) => (.text key, item)
  | _ => []

namespace Renderer

def bindTurn (key : Option String) (item : String) (turn : Value × Value) : Render Unit := do
  if let some name := key then
    Render.bindName name turn.1
  Render.bindName item turn.2

/-- The message of a field: from the map `errors` of the context if there is one, else from the
session. Of a list of messages it is the first. -/
def messageFor? (r : Renderer) (ctx : Context) (field : String) : Option Value :=
  let found := match ctx.find? "errors" with
    | some (.map errors) => Entries.find? field errors
    | _ => Entries.find? field r.evaluator.session.errors
  match found with
  | none | some .null => none
  | some (.list items) => items.head?
  | some message => some message

def interpolationText (r : Renderer) (ctx : Context) (expr : Expr) (escape : Bool) : String :=
  let text := r.evaluator.output ctx expr
  if escape then Text.escape text else text

/-- What stands at the place of a section: the section, the variable of that name if it is a text,
or the default. -/
def yieldText (r : Renderer) (ctx : Context) (sections : Entries String) (name : Expr)
    (default : Option Expr) : String :=
  let name := r.evaluator.output ctx name
  match Entries.find? name sections with
  | some content => content
  | none =>
    match ctx.find? name with
    | some (.text value) => value
    | _ => default.elim "" (r.evaluator.output ctx)

def assetPaths (v : Value) : List String :=
  match v with
  | .list items => items.map Value.toOutput
  | v => [v.toOutput]

def assetText (r : Renderer) (ctx : Context) (kind : AssetKind) (paths : Expr) : String :=
  let paths := (assetPaths (r.evaluator.eval ctx paths)).filter (· != "")
  (if kind = .vite then r.assets.clientScript else "") ++
    "".intercalate (paths.map fun p => r.assets.styleTag p ++ r.assets.scriptTag p)

mutual

def renderNode (r : Renderer) (enter : Enter) (f : Frame) : Node → Render String
  | .text content _ => return content
  | .interpolation expr escape _ => do
    return r.interpolationText (← Render.context) expr escape
  | .conditional condition consequent none _ => do
    if r.evaluator.condition (← Render.context) condition then
      renderNodes r enter f consequent
    else return ""
  | .conditional condition consequent (some alternate) _ => do
    if r.evaluator.condition (← Render.context) condition then
      renderNodes r enter f consequent
    else renderNodes r enter f alternate
  | .loop source key item body _ => do
    let turns := (r.evaluator.eval (← Render.context) source).loopEntries
    turns.foldlM (fun out turn => do
      bindTurn key item turn
      return out ++ (← renderNodes r enter f body)) ""
  | .includeView view _ => do
    enter f (r.evaluator.output (← Render.context) view)
  | .errorBlock field body oneLine _ => do
    let ctx ← Render.context
    match r.messageFor? ctx (r.evaluator.output ctx field) with
    | none => return ""
    | some message =>
      let text ← Render.detached (ctx.bind "message" message)
        (renderNodes r enter f.detach body)
      return if oneLine then Text.trim text ++ " " else text
  | .yieldSection name default _ => do
    return r.yieldText (← Render.context) f.sections name default
  | .sectionBlock _ body _ =>
    match f.mode with
    | .setAside => return ""
    | .inPlace => renderNodes r enter f body
  | .sectionValue _ _ _ => return ""
  | .extendsLayout _ _ => return ""
  | .csrf _ => return r.formField
  | .asset kind paths _ => do
    return r.assetText (← Render.context) kind paths

def renderNodes (r : Renderer) (enter : Enter) (f : Frame) : List Node → Render String
  | [] => return ""
  | n :: ns => do
    let text ← renderNode r enter f n
    return text ++ (← renderNodes r enter f ns)

end

end Renderer

end Templating
