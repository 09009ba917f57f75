import Templating.Text.Ranges
import Templating.Text.UnseenTable

/-!
# Texts that are shown

A notice shows a text between double quotes so that each of its characters can be seen and the end
cannot be mistaken: the quote and the backslash stand behind a backslash, four control characters
have a letter, and any other unseen character is written as its code point.
-/

namespace Templating.Text

def isSeen (c : Char) : Bool :=
  !inRanges unseenRanges c

def codePoint (c : Char) : List Char :=
  ['\x5c', 'u', '\x7b'] ++ Nat.toDigits 16 c.toNat ++ ['\x7d']

def shownChar (c : Char) : List Char :=
  if c = '\x22' ∨ c = '\x5c' then ['\x5c', c]
  else if c = '\n' then ['\x5c', 'n']
  else if c = '\r' then ['\x5c', 'r']
  else if c = '\t' then ['\x5c', 't']
  else if c = '\x00' then ['\x5c', '0']
  else if isSeen c then [c]
  else codePoint c

def shown (s : String) : String :=
  "\"" ++ String.ofList (s.toList.flatMap shownChar) ++ "\""

def shownList (texts : List String) : String :=
  "[" ++ ", ".intercalate (texts.map shown) ++ "]"

end Templating.Text
