import Templating.Command.Arguments
import Templating.Command.Report
import Templating.Config.Basic
import Templating.Host.Builtins
import Templating.Json.Reader
import Templating.Render.Engine

/-!
# The command `render`

Renders a view with data from files. Arguments win over the configuration, and a strict render can
be asked for by either. The first file that holds no JSON object ends the command.
-/

namespace Templating.Command

def maxDataDepth : Nat := 127

/-- The entries of the object in a data file, or why there are none. No file has no entries. -/
def readObject (w : Workspace) : Option String → Except String (Entries Value)
  | none => .ok []
  | some path =>
    match w.read path with
    | .error fault => .error ("failed to read " ++ path ++ ": " ++ fault.message)
    | .ok text =>
      match (Json.read? text).filter (·.depth ≤ maxDataDepth) |>.bind Value.ofJson? with
      | none => .error ("failed to parse " ++ path ++ ": not a JSON document")
      | some (.map entries) => .ok entries
      | some _ => .error (path ++ " must hold a JSON object")

namespace RenderArguments

def viewFiles (a : RenderArguments) (config : Config) : ViewFiles :=
  .ofExtension (a.viewsRoot.getD config.viewsRoot) (a.extension.getD config.extension)

def assets (a : RenderArguments) (config : Config) : Assets :=
  match a.assetBase.or config.render.assetBase with
  | some base => .served base (a.devServer || config.render.devServer)
  | none => .absent

def renderer (a : RenderArguments) (w : Workspace) (config : Config) (session : Session) :
    Renderer where
  views := (a.viewFiles config).views w.read
  evaluator := ⟨Builtins.registry, session⟩
  formField := tokenField a.formToken
  assets := a.assets config
  options :=
    let options := config.renderOptions
    { options with strict := a.strict || options.strict }
  fingerprint := hash

def readInput (a : RenderArguments) (w : Workspace) :
    Except String (Entries Value × Session) := do
  let data ← readObject w a.data
  let errors ← readObject w a.errors
  let old ← readObject w a.old
  return (data, .inMemory errors old)

def report (a : RenderArguments) : Except RenderError String → Report
  | .ok html =>
    match a.output with
    | none => .printed html
    | some path => { Report.printed "" with delivery := some ⟨path, html⟩ }
  | .error (.invalidTemplate view errors) =>
    (Report.failure (RenderError.headline view errors)).withNotices (errors.map (locatedError view))
  | .error e => .failure e.message

def viewLookups (files : ViewFiles) (requests : List Request) : List Lookup :=
  requests.filterMap fun request => (files.pathFor? request.view).map .file

def run (a : RenderArguments) (w : Workspace) (config : Config) : Report :=
  let inputs := (a.data.toList ++ a.errors.toList ++ a.old.toList).map Lookup.file
  match a.readInput w with
  | .error reason => (Report.failure reason).withLookups inputs
  | .ok (data, session) =>
    let engine := Engine.new (a.renderer w config session)
    let outcome := engine.renderView a.view (.ofValue (.map data))
    (a.report outcome.result).withLookups
      (inputs ++ viewLookups (a.viewFiles config) outcome.requests)

end RenderArguments

end Templating.Command
