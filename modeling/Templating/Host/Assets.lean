import Templating.Text.Markup

/-!
# Tags of the host

The markup that a host contributes to a page: the hidden field of a form that carries its token, and
the tags that load scripts and style sheets. Whatever is put into an attribute is escaped first.
-/

namespace Templating

/-- The hidden form field for a token; nothing without one. -/
def tokenField : Option String → String
  | none => ""
  | some token =>
    "<input type=\"hidden\" name=\"_token\" value=\"" ++ Text.escape token ++ "\">"

/-- The tags that a host gives for a path, as a script and as a style sheet, and those for the script
of a development server. -/
structure Assets where
  scriptTag : String → String
  styleTag : String → String
  clientScript : String

namespace Assets

def absent : Assets := ⟨fun _ => "", fun _ => "", ""⟩

def url (base path : String) : String :=
  String.ofList ((base.toList.reverse.dropWhile (· == '/')).reverse ++
    '/' :: path.toList.dropWhile (· == '/'))

def isStylesheet (path : String) : Bool :=
  path.endsWith ".css" || path.endsWith ".scss"

def scriptFrom (base path : String) : String :=
  if isStylesheet path then ""
  else "<script type=\"module\" src=\"" ++ Text.escape (url base path) ++ "\"></script>"

def styleFrom (base path : String) : String :=
  if isStylesheet path then
    "<link rel=\"stylesheet\" href=\"" ++ Text.escape (url base path) ++ "\">"
  else ""

/-- Scripts and style sheets below a base, perhaps behind a development server. Each path gets the
tag of its kind and no other. -/
def served (base : String) (devServer : Bool) : Assets where
  scriptTag := scriptFrom base
  styleTag := styleFrom base
  clientScript := if devServer then scriptFrom base "@vite/client" else ""

end Assets

end Templating
