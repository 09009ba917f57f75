import Templating.Text.CaseTable
import Templating.Text.Ranges

/-!
# Upper and lower case

Full case mapping of Unicode: a character may become several, and the capital sigma becomes the
final small sigma at the end of a word. Only lower-casing looks at the neighbours of a character;
`lowerFrom` therefore carries the characters already passed, the nearest first.
-/

namespace Templating.Text

/-- The image of the code point `n` under a list of runs and expansions; a code point that neither
covers is its own image. -/
def caseImage (runs : List CaseRun) (expansions : List (Nat × List Nat)) (n : Nat) : List Nat :=
  match runs.findSome? (·.image? n) with
  | some m => [m]
  | none => (expansions.lookup n).getD [n]

def upperChar (c : Char) : List Char :=
  (caseImage upperRuns upperExpansions c.toNat).map Char.ofNat

def lowerChar (c : Char) : List Char :=
  (caseImage lowerRuns lowerExpansions c.toNat).map Char.ofNat

def meetsCased (cs : List Char) : Bool :=
  (cs.dropWhile (inRanges caseIgnorableRanges)).head?.any (inRanges casedRanges)

/-- The lower-case form of `cs`, where `before` holds the characters passed so far, the nearest
first. A capital sigma is final when a cased character comes before it and none after it. -/
def lowerFrom (before : List Char) : List Char → List Char
  | [] => []
  | c :: cs =>
    (if c = 'Σ' then [if meetsCased before && !meetsCased cs then 'ς' else 'σ'] else lowerChar c)
      ++ lowerFrom (c :: before) cs

def lower (s : String) : String :=
  String.ofList (lowerFrom [] s.toList)

def upper (s : String) : String :=
  String.ofList (s.toList.flatMap upperChar)

def upperFirst (s : String) : String :=
  match s.toList with
  | [] => ""
  | c :: cs => String.ofList (upperChar c ++ cs)

end Templating.Text
