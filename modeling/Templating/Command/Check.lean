import Templating.Command.Arguments
import Templating.Command.Report
import Templating.Command.Workers
import Templating.Config.Basic
import Templating.Template.Document
import Templating.Text.Shown

/-!
# The command `check`

Lists the errors of templates. The reports of the workers are sorted by file name; the numbers in the
last line and the exit status come from what the workers have counted.
-/

namespace Templating.Command

namespace FileReport

def toJson (r : FileReport) : Json :=
  .object [("file", .string r.file), ("errors", .array (r.errors.map TemplateError.toJson))]

def lines (r : FileReport) : List String :=
  r.errors.map (locatedError r.file)

end FileReport

structure Findings where
  files : Nat
  reports : List FileReport
  tally : Tally
deriving DecidableEq, Repr

namespace Findings

def ofPool (p : Pool) : Findings where
  files := p.workers.length
  reports := p.reports.mergeSort fun a b => a.file ≤ b.file
  tally := p.tally

/-- The exit status: success needs that all files have a text and no errors. -/
def status (f : Findings) : Nat :=
  if f.tally.errors > 0 || f.tally.unreadable > 0 then 1 else 0

def summary (f : Findings) (elapsed : String) : String :=
  "\nChecked " ++ toString f.files ++ " files in " ++ elapsed ++ ": " ++ toString f.tally.errors ++
    " error(s) in " ++ toString f.reports.length ++ " file(s)"

def lines (f : Findings) (a : CheckArguments) (elapsed : String) : List String :=
  match a.format with
  | .text => f.reports.flatMap FileReport.lines ++ if a.quiet then [] else [f.summary elapsed]
  | .json => [(Json.array (f.reports.map FileReport.toJson)).pretty]

def unreadableNotice (file : String) : String :=
  "Failed to read " ++ file ++ ": " ++ FileFault.notText.message

def report (f : Findings) (a : CheckArguments) (elapsed : String) : Report :=
  { Report.printed (String.join ((f.lines a elapsed).map (· ++ "\n"))) with
    status := f.status
    notices := String.join (f.tally.notices.map (unreadableNotice · ++ "\n")) }

end Findings

namespace CheckArguments

def roots (a : CheckArguments) (config : Config) : List String :=
  if a.paths.isEmpty then [config.viewsRoot] else a.paths

/-- The files to be checked: those whose path ends with the extension. -/
def files (a : CheckArguments) (w : Workspace) (config : Config) :
    List (String × Option String) :=
  let extension := a.extension.getD config.extension
  ((a.roots config).flatMap w.walk).filter fun file => file.1.endsWith extension

/-- The report on files whose workers have these turns; `elapsed` is the text for the time it took. -/
def reportOn (a : CheckArguments) (config : Config) (files : List (String × Option String))
    (turns : List Nat) (elapsed : String) : Report :=
  if files.isEmpty then
    (Report.printed "").withNotices
      ["No " ++ a.extension.getD config.extension ++ " files found in " ++
        Text.shownList (a.roots config)]
  else
    (Findings.ofPool ((Pool.start files).run config.renderOptions.markers turns)).report a elapsed

def run (a : CheckArguments) (w : Workspace) (config : Config) (elapsed : String) : Report :=
  let files := a.files w config
  (a.reportOn config files (Pool.inTurn files.length) elapsed).withLookups ((a.roots config).map .tree)

end CheckArguments

end Templating.Command
