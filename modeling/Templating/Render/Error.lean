import Templating.Template.Error

/-!
# Render errors

What ends a render. Problems of one expression or one missing include do not: they render as
nothing.
-/

namespace Templating

inductive RenderError where
  | viewNotFound (name path : String)
  | unreadable (name path cause : String)
  | circular (chain : List String)
  | depthExceeded (limit : Nat)
  | invalidTemplate (view : String) (errors : List TemplateError)
deriving DecidableEq, Repr

namespace RenderError

def summarize (errors : List TemplateError) : String :=
  "; ".intercalate (errors.map fun e =>
    e.message ++ " at " ++ toString e.loc.start.line ++ ":" ++ toString e.loc.start.column)

def headline (view : String) (errors : List TemplateError) : String :=
  "view [" ++ view ++ "] has " ++ toString errors.length ++ " template error(s)"

def message : RenderError → String
  | .viewNotFound name path => "view [" ++ name ++ "] not found at " ++ path
  | .unreadable name path cause =>
    "failed to read view [" ++ name ++ "] at " ++ path ++ ": " ++ cause
  | .circular chain => "circular view reference: " ++ " -> ".intercalate chain
  | .depthExceeded limit => "views nested deeper than " ++ toString limit ++ " levels"
  | .invalidTemplate view errors => headline view errors ++ ": " ++ summarize errors

end RenderError

end Templating
