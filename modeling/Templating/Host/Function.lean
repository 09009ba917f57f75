import Templating.Value.Basic

/-!
# Functions of the host

Templates may call the functions of a registry, and no others. A call that fails says why; inside a
template it then counts as null.
-/

namespace Templating

inductive FunctionError where
  | unknown (name : String)
  | arity (name expected : String) (got : Nat)
  | invalid (name message : String)
deriving DecidableEq, Repr

def FunctionError.message : FunctionError → String
  | .unknown name => "unknown function \x60" ++ name ++ "\x60"
  | .arity name expected got =>
    "\x60" ++ name ++ "\x60 expects " ++ expected ++ " argument(s), got " ++ toString got
  | .invalid name message => "\x60" ++ name ++ "\x60: " ++ message

abbrev HostFunction := List Value → Except FunctionError Value

structure Registry where
  functions : Entries HostFunction

namespace Registry

def empty : Registry := ⟨[]⟩

def register (r : Registry) (name : String) (f : HostFunction) : Registry :=
  ⟨Entries.insert name f r.functions⟩

def contains (r : Registry) (name : String) : Bool :=
  Entries.contains name r.functions

def call (r : Registry) (name : String) (args : List Value) : Except FunctionError Value :=
  match Entries.find? name r.functions with
  | some f => f args
  | none => .error (.unknown name)

end Registry

end Templating
