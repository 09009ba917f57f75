import Templating.Config.Basic

/-!
# Finding the configuration

The configuration of a directory is the file of that name in the directory itself or in the nearest
directory above that has one. A relative views directory is meant from where the file is. A file
that cannot be used counts as no settings, with a warning.
-/

namespace Templating.Config

def fileName : String := "stencil.config.json"

inductive Problem where
  | unreadable (path : String) (fault : FileFault)
  | invalid (path : String)
deriving DecidableEq, Repr

def Problem.message : Problem → String
  | .unreadable path fault => "failed to read " ++ path ++ ": " ++ fault.message
  | .invalid path => "failed to parse " ++ path ++ ": not a valid configuration"

/-- Where the configuration of an absolute directory may be, the nearest place first. -/
def candidates (directory : String) : List String :=
  (Path.ancestors directory).map (Path.join · fileName)

def find? (files : FileTree) (directory : String) : Option String :=
  (candidates directory).find? files.isFile

def anchor (base : String) (c : Config) : Config :=
  { c with views := { c.views with root := c.views.root.map (Path.join base) } }

def read (files : FileTree) (path : String) : Except Problem Config :=
  match files.read path with
  | .error fault => .error (.unreadable path fault)
  | .ok text =>
    match (Json.read? text).bind ofJson? with
    | none => .error (.invalid path)
    | some c => .ok (anchor ((Path.parent? path).getD "") c)

def load (files : FileTree) (directory : String) : Config × Option Problem :=
  match find? files directory with
  | none => (standard, none)
  | some path =>
    match read files path with
    | .ok c => (c, none)
    | .error problem => (standard, some problem)

end Templating.Config
