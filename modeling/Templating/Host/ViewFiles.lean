import Templating.FileTree
import Templating.Host.Views

/-!
# Views in files

A view `a.b` is the file `a/b` below the views directory, with the extension of views. A name is cut
at dots and slashes; a name with an empty piece, which `..` always has, or with a backslash belongs
to no file, so no name leads out of the directory.
-/

namespace Templating

structure ViewFiles where
  root : String
  extension : String
deriving DecidableEq, Repr

namespace ViewFiles

def standardExtension : String := ".stencil.html"

/-- The extension as it is appended to a file name: it begins with a dot unless it is empty. -/
def dotted (extension : String) : String :=
  if extension == "" || extension.startsWith "." then extension else "." ++ extension

def ofExtension (root extension : String) : ViewFiles :=
  ⟨root, dotted extension⟩

def pieces (name : String) : List String :=
  (Path.splitAt (fun c => c == '.' || c == '/') name.toList).map String.ofList

def isPiece (piece : String) : Bool :=
  piece != "" && !piece.toList.contains '\x5c'

def appendPieces (extension : String) : String → List String → String
  | path, [] => path
  | path, [last] => Path.join path (last ++ extension)
  | path, piece :: pieces => appendPieces extension (Path.join path piece) pieces

/-- The path of a view; none when the name belongs to no file. -/
def pathFor? (v : ViewFiles) (name : String) : Option String :=
  if (pieces name).all isPiece then some (appendPieces v.extension v.root (pieces name)) else none

def views (v : ViewFiles) (read : String → Except FileFault String) : Views := fun name =>
  match v.pathFor? name with
  | none => .error (.notFound (Path.join v.root name))
  | some path =>
    match read path with
    | .ok source => .ok ⟨path, source⟩
    | .error .notFound => .error (.notFound path)
    | .error fault => .error (.unreadable path fault.message)

end ViewFiles

end Templating
