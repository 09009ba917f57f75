import Templating.FileTree
import Templating.Template.Error

/-!
# Reports

What a command leaves behind: an exit status, the texts for both output streams, and perhaps a file
to be written. A report also says what the command looked at, so that files can be brought in as
they are needed.
-/

namespace Templating.Command

/-- The files a command sees, and the directory it runs in, as an absolute path. -/
structure Workspace where
  files : FileTree
  directory : String

namespace Workspace

def absolute (w : Workspace) (path : String) : String :=
  Path.join w.directory path

def find (w : Workspace) (path : String) : Except FileFault FileTree :=
  if Path.isTooLong path then .error .invalidName else w.files.find (w.absolute path)

def read (w : Workspace) (path : String) : Except FileFault String :=
  (w.find path).bind FileTree.content

def write (w : Workspace) (path text : String) : Except FileFault FileTree :=
  if Path.isTooLong path then .error .invalidName else w.files.write (w.absolute path) text

/-- The files at a path and below it, each with its path as it is seen from there. The path `-`
stands for standard input, where there are none. -/
def walk (w : Workspace) (path : String) : List (String × Option String) :=
  if Path.isHyphen path then []
  else
    match w.find path with
    | .ok found => found.walk path
    | .error _ => []

end Workspace

/-- What a command looks at: one file, or all files at a path and below it. -/
inductive Lookup where
  | file (path : String)
  | tree (path : String)
deriving DecidableEq, Repr

structure Delivery where
  path : String
  text : String
deriving DecidableEq, Repr

structure Report where
  status : Nat
  output : String
  notices : String
  delivery : Option Delivery
  lookups : List Lookup
deriving DecidableEq, Repr

def warningMark : String := "\x1b[33mWarning:\x1b[0m "

def errorMark : String := "\x1b[31mError:\x1b[0m "

namespace Report

def printed (text : String) : Report := ⟨0, text, "", none, []⟩

def failure (reason : String) : Report := ⟨1, "", errorMark ++ reason ++ "\n", none, []⟩

def withNotices (notices : List String) (r : Report) : Report :=
  { r with notices := String.join (notices.map (· ++ "\n")) ++ r.notices }

def withLookups (lookups : List Lookup) (r : Report) : Report :=
  { r with lookups := lookups ++ r.lookups }

def undelivered (r : Report) (path cause : String) : Report :=
  let reason := "failed to write " ++ path ++ ": " ++ cause
  { r with status := 1, notices := r.notices ++ errorMark ++ reason ++ "\n", delivery := none }

/-- Writes the file of a report, and the files afterwards. -/
def deliver (w : Workspace) (r : Report) : Report × FileTree :=
  match r.delivery with
  | none => (r, w.files)
  | some d =>
    match w.write d.path d.text with
    | .ok files => (r, files)
    | .error fault => (r.undelivered d.path fault.message, w.files)

end Report

def locatedError (name : String) (e : TemplateError) : String :=
  let start := e.loc.start
  name ++ ":" ++ toString start.line ++ ":" ++ toString start.column ++ ": " ++ e.message

end Templating.Command
