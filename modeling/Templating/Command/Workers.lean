import Templating.Template.Parser

/-!
# Workers

Files are checked side by side, each by a worker of its own. A worker acts in turns, and in a turn it
touches at most one of the things that all of them share: the two counts and the notices. Which worker
has the next turn is left open (`Pool.run`). Once all are done, their reports stand in the order of
the files, in whatever order they came.
-/

namespace Templating.Command

structure FileReport where
  file : String
  errors : List TemplateError
deriving DecidableEq, Repr

/-- How many errors and how many files without text have been counted, and the files of which notice
has been given. -/
structure Tally where
  errors : Nat
  unreadable : Nat
  notices : List String
deriving DecidableEq, Repr

namespace Tally

def zero : Tally := ⟨0, 0, []⟩

def add (s t : Tally) : Tally :=
  ⟨s.errors + t.errors, s.unreadable + t.unreadable, s.notices ++ t.notices⟩

end Tally

/-- How far a worker has come: it has yet to read its file; it has given notice that there is no text;
it has found errors that are not counted yet; or it is done and has a report if there were any. -/
inductive Worker where
  | waiting (file : String) (text : Option String)
  | refused
  | found (report : FileReport)
  | done (report : Option FileReport)
deriving DecidableEq, Repr

namespace Worker

def turn (m : Markers) : Worker → Worker × Tally
  | .waiting file none => (.refused, ⟨0, 0, [file]⟩)
  | .waiting file (some text) =>
    let errors := (parseTemplate m text).errors
    (if errors.isEmpty then .done none else .found ⟨file, errors⟩, .zero)
  | .refused => (.done none, ⟨0, 1, []⟩)
  | .found report => (.done (some report), ⟨report.errors.length, 0, []⟩)
  | .done report => (.done report, .zero)

def report? : Worker → Option FileReport
  | .done report => report
  | _ => none

end Worker

structure Pool where
  workers : List Worker
  tally : Tally
deriving DecidableEq, Repr

namespace Pool

def start (files : List (String × Option String)) : Pool :=
  ⟨files.map fun file => .waiting file.1 file.2, .zero⟩

def advance (m : Markers) (p : Pool) (i : Nat) : Pool :=
  match p.workers[i]? with
  | none => p
  | some w =>
    let (w, counted) := w.turn m
    ⟨p.workers.set i w, p.tally.add counted⟩

/-- The workers have turns in the order in which they are numbered here. -/
def run (m : Markers) (p : Pool) (turns : List Nat) : Pool :=
  turns.foldl (advance m) p

def reports (p : Pool) : List FileReport :=
  p.workers.filterMap Worker.report?

/-- One worker after the other, each with the two turns it may need. -/
def inTurn (count : Nat) : List Nat :=
  (List.range count).flatMap fun i => [i, i]

end Pool

end Templating.Command
