import Templating.Value.Basic

/-!
# Sessions

What the host remembers of the last request: validation errors by field, and the form input by key.
How it answers for a key without input is up to the host.
-/

namespace Templating

structure Session where
  errors : Entries Value
  old : (key : String) → (default : Value) → Value

namespace Session

def empty : Session := ⟨[], fun _ default => default⟩

/-- A session that holds errors and input; for a key with null or no input it gives the default. -/
def inMemory (errors input : Entries Value) : Session where
  errors := errors
  old key default :=
    match Entries.find? key input with
    | none | some .null => default
    | some value => value

end Session

end Templating
