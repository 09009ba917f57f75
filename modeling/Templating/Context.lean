import Templating.Value.Lookup

/-!
# Contexts

The variables that the expressions of a template see. A context is ordered: it is built from a map
and new variables come last. Rendering only looks names up and binds them.
-/

namespace Templating

structure Context where
  bindings : Entries Value
deriving Inhabited

namespace Context

def empty : Context := ⟨[]⟩

/-- The entries of a map as variables; any other value gives none. -/
def ofValue : Value → Context
  | .map entries => ⟨entries⟩
  | _ => empty

def find? (ctx : Context) (name : String) : Option Value :=
  Entries.find? name ctx.bindings

def contains (ctx : Context) (name : String) : Bool :=
  Entries.contains name ctx.bindings

def bind (ctx : Context) (name : String) (value : Value) : Context :=
  ⟨Entries.insert name value ctx.bindings⟩

def erase (ctx : Context) (name : String) : Context :=
  ⟨Entries.erase name ctx.bindings⟩

def names (ctx : Context) : List String :=
  Entries.names ctx.bindings

def toValue (ctx : Context) : Value :=
  .map ctx.bindings

/-- A name without the sign that may stand before it. -/
def plainName (name : String) : String :=
  match name.toList with
  | '$' :: cs => String.ofList cs
  | _ => name

/-- The value of a variable followed by keys; null when the variable or a key finds nothing. -/
def resolve (ctx : Context) (name : String) (keys : List Value) : Value :=
  ((ctx.find? (plainName name)).bind (Value.lookupAll? · keys)).getD .null

theorem find?_bind (ctx : Context) (name other : String) (value : Value) :
    (ctx.bind name value).find? other = if other = name then some value else ctx.find? other :=
  Entries.find?_insert name other value ctx.bindings

theorem names_bind (ctx : Context) (name : String) (value : Value) :
    (ctx.bind name value).names =
      if name ∈ ctx.names then ctx.names else ctx.names ++ [name] :=
  Entries.names_insert name value ctx.bindings

end Context

end Templating
