import Templating.Expr.Basic
import Templating.Template.Directive
import Templating.Template.Position
import Templating.Json.Basic

/-!
# Template errors

What can be wrong with the structure of a template, where it is, and how it is worded. A template
with errors still has a tree.
-/

namespace Templating

inductive TemplateFault where
  | unclosedBlock (opener : Directive)
  | unexpectedCloser (closer : Directive)
  | duplicateElse
  | unclosedArgs
  | unclosedInterpolation
  | invalidLoopHeader (cause : ExprError)
  | missingArgs (directive : Directive)
deriving DecidableEq, Repr

namespace TemplateFault

def label : TemplateFault → String
  | .unclosedBlock _ => "UnclosedBlock"
  | .unexpectedCloser _ => "UnexpectedCloser"
  | .duplicateElse => "DuplicateElse"
  | .unclosedArgs => "UnclosedDirectiveArgs"
  | .unclosedInterpolation => "UnclosedInterpolation"
  | .invalidLoopHeader _ => "InvalidForeachHeader"
  | .missingArgs _ => "MissingDirectiveArgs"

def summary : TemplateFault → String
  | .unclosedBlock _ => "Block directive is never closed."
  | .unexpectedCloser _ => "Closing directive has no matching opening directive."
  | .duplicateElse => "Only one @else is allowed per @if."
  | .unclosedArgs => "Directive arguments are missing a closing parenthesis."
  | .unclosedInterpolation => "Interpolation is missing its closing delimiter."
  | .invalidLoopHeader _ =>
    "Expected \x60@foreach(expr as $item)\x60 or \x60@foreach(expr as $key => $item)\x60."
  | .missingArgs _ => "Directive requires an argument list."

def detail? : TemplateFault → Option String
  | .unclosedBlock d => some d.name
  | .unexpectedCloser d => some d.name
  | .duplicateElse => some Directive.otherwise.name
  | .unclosedArgs => none
  | .unclosedInterpolation => none
  | .invalidLoopHeader cause => some cause.message
  | .missingArgs d => some d.name

def message (f : TemplateFault) : String :=
  match f.detail? with
  | some detail => f.summary ++ " (" ++ detail ++ ")"
  | none => f.summary

end TemplateFault

structure TemplateError where
  fault : TemplateFault
  loc : Location
deriving DecidableEq, Repr

def TemplateError.message (e : TemplateError) : String :=
  e.fault.message

end Templating
