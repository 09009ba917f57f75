import Templating.Entries

/-!
# Views

A view is a template known by name. Where its text comes from is up to the host: a `Views` answers a
name with the text and the path it was read from, or says why there is none.
-/

namespace Templating

structure ViewSource where
  path : String
  source : String
deriving DecidableEq, Repr

inductive LoadError where
  | notFound (path : String)
  | unreadable (path cause : String)
deriving DecidableEq, Repr

abbrev Views := String → Except LoadError ViewSource

def Views.inMemory (sources : Entries String) : Views := fun name =>
  let path := "memory:" ++ name
  match Entries.find? name sources with
  | some source => .ok ⟨path, source⟩
  | none => .error (.notFound path)

end Templating
