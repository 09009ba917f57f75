import Templating.Entries
import Templating.Path

/-!
# File trees

What commands see of a file system: files and directories below the root. A file that is not UTF-8
has no text. A path is followed part by part, so each directory on the way has to be there.
-/

namespace Templating

inductive FileTree where
  | file (text : Option String)
  | directory (entries : List (String × FileTree))
deriving Inhabited

inductive FileFault where
  | notFound
  | notDirectory
  | isDirectory
  | notText
  | invalidName
deriving DecidableEq, Repr

def FileFault.message : FileFault → String
  | .notFound => "no such file or directory"
  | .notDirectory => "not a directory"
  | .isDirectory => "is a directory"
  | .notText => "stream did not contain valid UTF-8"
  | .invalidName => "invalid file name"

namespace FileTree

def empty : FileTree := .directory []

def isInvalidName (name : String) : Bool :=
  name.utf8ByteSize > 255

/-- Follows parts from `here`, where `above` are the directories on the way to it, the nearest
first. Two dots lead back; at the root they stay. -/
def follow (above : List FileTree) (here : FileTree) : List String → Except FileFault FileTree
  | [] => .ok here
  | part :: parts =>
    match here with
    | .file _ => .error .notDirectory
    | .directory entries =>
      if Path.isIdle part then follow above here parts
      else if part = ".." then
        match above with
        | [] => follow [] here parts
        | up :: above => follow above up parts
      else if isInvalidName part then .error .invalidName
      else
        match Entries.find? part entries with
        | none => .error .notFound
        | some next => follow (here :: above) next parts

/-- What an absolute path leads to. No path holds the character zero. -/
def find (root : FileTree) (path : String) : Except FileFault FileTree :=
  if path.toList.contains '\x00' then .error .invalidName
  else if path == "" then .error .notFound
  else follow [] root (Path.parts path)

def content : FileTree → Except FileFault String
  | .directory _ => .error .isDirectory
  | .file none => .error .notText
  | .file (some text) => .ok text

def read (root : FileTree) (path : String) : Except FileFault String :=
  (find root path).bind content

def isFile (root : FileTree) (path : String) : Bool :=
  match find root path with
  | .ok (.file _) => true
  | _ => false

/-- Puts a tree at the end of a list of names, with the directories on the way; a file on the way
gives way to a directory. -/
def insert (tree : FileTree) : List String → FileTree → FileTree
  | [], _ => tree
  | name :: names, .directory entries =>
    let inner := (Entries.find? name entries).getD empty
    .directory (Entries.insert name (insert tree names inner) entries)
  | name :: names, .file _ => .directory [(name, insert tree names empty)]

def ensure (root : FileTree) (names : List String) (tree : FileTree) : FileTree :=
  match tree, follow [] root names with
  | .directory [], .ok (.directory _) => root
  | _, _ => insert tree names root

/-- Puts a tree at the parts of a path behind `above`, whose names are the last first. Two dots lead
back out of a directory, which has to be there for that. -/
def place (above : List String) (root : FileTree) : List String → FileTree → FileTree
  | [], tree => ensure root above.reverse tree
  | name :: names, tree =>
    if name = ".." then place above.tail (ensure root above.reverse empty) names tree
    else place (name :: above) root names tree

def insertAt (root : FileTree) (path : String) (tree : FileTree) : FileTree :=
  place [] root (Path.components path) tree

/-- Writes a file where the directory on its way is there already. The last part of the path names
the file, so it must say something and not lead back. -/
def write (root : FileTree) (path text : String) : Except FileFault FileTree :=
  match (Path.parts path).reverse with
  | [] => .error .notFound
  | last :: before =>
    if Path.isIdle last || last == ".." then .error .isDirectory
    else
      match find root path with
      | .ok (.directory _) => .error .isDirectory
      | .ok (.file _) => .ok (insertAt root path (.file (some text)))
      | .error .notFound =>
        match follow [] root before.reverse with
        | .ok (.directory _) => .ok (insertAt root path (.file (some text)))
        | .ok (.file _) => .error .notDirectory
        | .error e => .error e
      | .error e => .error e

mutual

/-- The files in a tree that is shown as `path`: each with its path, and its text if it has one.
Entries whose name begins with a dot are left out. Behind a path that is too long a file has no text
and a directory no entries. -/
def walk (path : String) : FileTree → List (String × Option String)
  | .file text => [(path, if Path.isTooLong path then none else text)]
  | .directory entries => if Path.isTooLong path then [] else walkEntries path entries

def walkEntries (path : String) : List (String × FileTree) → List (String × Option String)
  | [] => []
  | (name, tree) :: entries =>
    (if name.startsWith "." then [] else walk (Path.join path name) tree) ++
      walkEntries path entries

end

end FileTree

end Templating
