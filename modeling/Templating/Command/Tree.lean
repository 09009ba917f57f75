import Templating.Command.Arguments
import Templating.Command.Report
import Templating.Config.Basic
import Templating.Template.Document
import Templating.Template.Parser

/-!
# The command `ast`

Prints the tree of a template as a JSON document. Errors in the template are warnings here.
-/

namespace Templating.Command.TreeArguments

def write (a : TreeArguments) (root : Root) : String :=
  if a.compact then root.toJson.compact else root.toJson.pretty

def run (a : TreeArguments) (w : Workspace) (config : Config) : Report :=
  let report : Report :=
    match w.read a.file with
    | .error fault => .failure ("failed to read " ++ a.file ++ ": " ++ fault.message)
    | .ok text =>
      let parsed := parseTemplate config.renderOptions.markers text
      (Report.printed (a.write parsed.root ++ "\n")).withNotices
        (parsed.errors.map fun e => warningMark ++ locatedError a.file e)
  report.withLookups [.file a.file]

end Templating.Command.TreeArguments
