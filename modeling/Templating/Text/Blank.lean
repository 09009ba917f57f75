/-!
# Blank characters

`isBlank` is the Unicode property White_Space, twenty-five characters in ten ranges. `trim` removes
blank characters from both ends of a text; `trimBy` does so for any class of characters.
-/

namespace Templating.Text

/-- The characters with the Unicode property White_Space. -/
def isBlank (c : Char) : Bool :=
  let n := c.toNat
  (0x09 ≤ n && n ≤ 0x0D) || n == 0x20 || n == 0x85 || n == 0xA0 || n == 0x1680 ||
    (0x2000 ≤ n && n ≤ 0x200A) || n == 0x2028 || n == 0x2029 || n == 0x202F || n == 0x205F ||
    n == 0x3000

/-- Blank characters that stay on their line: space, tab and carriage return. -/
def isInlineBlank (c : Char) : Bool :=
  c == ' ' || c == '\t' || c == '\r'

/-- The blank characters of ASCII but the vertical tab. -/
def isAsciiBlank (c : Char) : Bool :=
  c == ' ' || c == '\t' || c == '\n' || c == '\x0c' || c == '\r'

def trimEndBy (p : Char → Bool) (cs : List Char) : List Char :=
  (cs.reverse.dropWhile p).reverse

def trimBy (p : Char → Bool) (cs : List Char) : List Char :=
  trimEndBy p (cs.dropWhile p)

def trim (s : String) : String :=
  String.ofList (trimBy isBlank s.toList)

@[simp] theorem trimBy_nil (p : Char → Bool) : trimBy p [] = [] := rfl

end Templating.Text
