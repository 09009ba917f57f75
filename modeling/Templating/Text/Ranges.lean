/-!
# Ranges of characters

Classes of characters are given as ranges of code points; both ends of a range belong to it.
-/

namespace Templating.Text

def inRanges (ranges : List (Nat × Nat)) (c : Char) : Bool :=
  ranges.any fun (low, high) => low ≤ c.toNat && c.toNat ≤ high

end Templating.Text
