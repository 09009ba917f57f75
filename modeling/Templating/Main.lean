import Templating.Command.Elapsed
import Templating.Command.Run

/-!
# The program

Runs a command line on the files of the current directory. The command runs on the files known so
far; what it looked at is then brought in and the command runs again, until it looks at nothing new.
Its output and its file are written only then. The files of a directory are those that standard
input names, one path a line, such as `git ls-files` prints: what a repository ignores is not
checked.
-/

namespace Templating.Program

partial def readLines (stream : IO.FS.Stream) (before : Array String) : IO (List String) := do
  let line ← stream.getLine
  if line.isEmpty then return before.toList
  readLines stream (before.push ((line.dropEndWhile (· == '\n')).toString))

/-- Brings in the file at an absolute path. A directory comes without its files. -/
def bring (files : FileTree) (path : String) : IO FileTree := do
  try
    return files.insertAt path (.file (String.fromUTF8? (← IO.FS.readBinFile path)))
  catch
    | .noFileOrDirectory .. => return files
    | .inappropriateType .. => return files.insertAt path .empty
    | _ => return files.insertAt path (.file none)

def bringLookup (w : Command.Workspace) : Command.Lookup → IO Command.Workspace
  | .file path => return { w with files := ← bring w.files (w.absolute path) }
  | .tree path => do
    let files ← bring w.files (w.absolute path)
    match files.find (w.absolute path) with
    | .ok (.directory _) =>
      let names ← readLines (← IO.getStdin) #[]
      return { w with files := ← (names.map w.absolute).foldlM bring files }
    | _ => return { w with files := files }

/-- Runs a command line until it looks at nothing that has not been brought in. -/
partial def settle (words : List String) (started : Nat) (seen : List Command.Lookup)
    (w : Command.Workspace) : IO Command.Report := do
  let report := Command.runWords words w (Command.elapsedText ((← IO.monoNanosNow) - started))
  let fresh := (report.lookups.filter (!seen.contains ·)).eraseDups
  if fresh.isEmpty then return report
  settle words started (seen ++ fresh) (← fresh.foldlM bringLookup w)

def deliver (report : Command.Report) : IO Command.Report := do
  match report.delivery with
  | none => return report
  | some d =>
    try
      IO.FS.writeFile d.path d.text
      return report
    catch e => return report.undelivered d.path (toString e)

end Templating.Program

def main (words : List String) : IO UInt32 := do
  let directory := toString (← IO.currentDir)
  let w : Templating.Command.Workspace :=
    ⟨Templating.FileTree.empty.insertAt directory .empty, directory⟩
  let report ← Templating.Program.settle words (← IO.monoNanosNow) [] w
  let report ← Templating.Program.deliver report
  (← IO.getStderr).putStr report.notices
  (← IO.getStdout).putStr report.output
  return report.status.toUInt32
