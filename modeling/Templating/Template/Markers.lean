/-!
# Delimiters of interpolations

What opens and closes an interpolation of either kind. Delimiters may be any two texts.
-/

namespace Templating

structure Delimiters where
  opening : List Char
  closing : List Char
deriving DecidableEq, Repr, Inhabited

/-- The delimiters of both kinds of interpolation: output as it is, and output with entities. -/
structure Markers where
  raw : Delimiters
  escaped : Delimiters
deriving DecidableEq, Repr, Inhabited

def Markers.delimiters (m : Markers) (escape : Bool) : Delimiters :=
  if escape then m.escaped else m.raw

def Markers.standard : Markers where
  raw := ⟨"\x7b\x7b".toList, "\x7d\x7d".toList⟩
  escaped := ⟨"\x7b!!".toList, "!!\x7d".toList⟩

end Templating
