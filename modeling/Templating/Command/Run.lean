import Templating.Command.Check
import Templating.Command.Render
import Templating.Command.Tree
import Templating.Config.Search

/-!
# Running command lines

A command runs with the configuration of its directory; a configuration that cannot be used gives a
warning and no settings. A mistake in the command line gives the status 2 and nothing else happens.
-/

namespace Templating.Command

def helpText : String :=
  "Usage: stencil [OPTIONS] <COMMAND>\n\n" ++
  "Commands:\n" ++
  "  render <VIEW>     Render a view\n" ++
  "  check [PATHS]...  List the errors of templates\n" ++
  "  ast <FILE>        Print the tree of a template as JSON\n" ++
  "  help              Print this text\n"

def versionText : String := "stencil 0.1.0\n"

def Halt.report : Halt → Report
  | .help => .printed helpText
  | .version => .printed versionText
  | .fault mistake =>
    { Report.printed "" with status := 2, notices := "error: " ++ mistake.message ++ "\n" }

/-- Runs a command; `elapsed` is the text for the time it took. -/
def run (command : Command) (w : Workspace) (elapsed : String) : Report :=
  let (config, problem) := Config.load w.files w.directory
  let report : Report :=
    match command with
    | .render a => a.run w config
    | .check a => a.run w config elapsed
    | .tree a => a.run w config
  (report.withNotices (problem.toList.map (warningMark ++ ·.message))).withLookups
    ((Config.candidates w.directory).map .file)

def runWords (words : List String) (w : Workspace) (elapsed : String) : Report :=
  match ofWords words with
  | .error halt => halt.report
  | .ok command => command.run w elapsed

end Templating.Command
