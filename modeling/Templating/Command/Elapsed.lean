/-!
# Elapsed time

The text for the time a command took: four places of the largest unit of which there is at least
one.
-/

namespace Templating.Command

/-- A count of `unit` nanoseconds with four places, a half goes up. -/
def fourPlaces (nanoseconds unit : Nat) : String :=
  let scaled := (nanoseconds * 10000 + unit / 2) / unit
  let places := Nat.toDigits 10 (scaled % 10000)
  let zeros := List.replicate (4 - places.length) '0'
  toString (scaled / 10000) ++ String.ofList ('.' :: zeros ++ places)

def elapsedText (nanoseconds : Nat) : String :=
  if 1000000000 ≤ nanoseconds then fourPlaces nanoseconds 1000000000 ++ "s"
  else if 1000000 ≤ nanoseconds then fourPlaces nanoseconds 1000000 ++ "ms"
  else if 1000 ≤ nanoseconds then fourPlaces nanoseconds 1000 ++ "µs"
  else fourPlaces nanoseconds 1 ++ "ns"

end Templating.Command
