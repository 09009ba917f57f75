/-!
# Paths

Paths are texts whose parts stand between slashes; one that begins with a slash is absolute. Empty
parts and the part `.` say nothing, but they stay in the text: a path is shown as it was put
together. `join` appends a path to another, `parent?` takes the last part that says something away.
-/

namespace Templating.Path

def splitAt (p : Char → Bool) : List Char → List (List Char)
  | [] => [[]]
  | c :: cs =>
    if p c then [] :: splitAt p cs
    else
      match splitAt p cs with
      | [] => [[c]]
      | part :: parts => (c :: part) :: parts

def parts (path : String) : List String :=
  (splitAt (· == '/') path.toList).map String.ofList

def ofParts (parts : List String) : String :=
  "/".intercalate parts

def isAbsolute (path : String) : Bool :=
  path.startsWith "/"

/-- The path `added` seen from `base`: an absolute one replaces the base, and a slash is put between
the two unless the base is empty or ends with one. -/
def join (base added : String) : String :=
  if isAbsolute added then added
  else if base == "" || base.endsWith "/" then base ++ added
  else base ++ "/" ++ added

def isIdle (part : String) : Bool :=
  part == "" || part == "."

/-- Whether a path has 4096 bytes or more, so that it leads nowhere. -/
def isTooLong (path : String) : Bool :=
  4096 ≤ path.utf8ByteSize

def isHyphen (path : String) : Bool :=
  match parts path with
  | "-" :: rest => rest.all isIdle
  | _ => false

def dropIdle (reversed : List String) : List String :=
  reversed.dropWhile isIdle

def components (path : String) : List String :=
  (parts path).filter (!isIdle ·)

/-- The path without its last part; none for the root and for a path of no parts. -/
def parent? (path : String) : Option String :=
  match dropIdle (parts path).reverse with
  | [] => none
  | _ :: before =>
    let rest := ofParts (dropIdle before).reverse
    some (if rest == "" && isAbsolute path then "/" else rest)

/-- The path and all its parents, the nearest first; `fuel` bounds their number. -/
def ancestorsWithin : (fuel : Nat) → String → List String
  | 0, _ => []
  | fuel + 1, path => path :: (parent? path).elim [] (ancestorsWithin fuel)

def ancestors (path : String) : List String :=
  ancestorsWithin ((parts path).length + 1) path

/-- What is left of a path below a base, without idle parts at its ends; none when the path is not
below the base. -/
def below? (base path : String) : Option String :=
  let rec strip : List String → List String → Option (List String)
    | [], rest => some rest
    | b :: bs, p :: ps => if b == p then strip bs ps else none
    | _ :: _, [] => none
  (strip (parts base) (parts path)).map fun rest =>
    ofParts (dropIdle (rest.dropWhile isIdle).reverse).reverse

end Templating.Path
