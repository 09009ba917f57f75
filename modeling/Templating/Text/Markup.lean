/-!
# Markup entities

`escape` makes a text safe inside element content and inside a double-quoted attribute: each of the
four characters `&`, `<`, `>` and `"` is written as its entity, every other character stays.
-/

namespace Templating.Text

def entity? : Char → Option (List Char)
  | '&' => some "&amp;".toList
  | '<' => some "&lt;".toList
  | '>' => some "&gt;".toList
  | '\x22' => some "&quot;".toList
  | _ => none

def escapeChars : List Char → List Char
  | [] => []
  | c :: cs => (entity? c).getD [c] ++ escapeChars cs

@[simp] theorem escapeChars_nil : escapeChars [] = [] := rfl

theorem escapeChars_cons (c : Char) (cs : List Char) :
    escapeChars (c :: cs) = (entity? c).getD [c] ++ escapeChars cs := rfl

def escape (s : String) : String :=
  String.ofList (escapeChars s.toList)

@[simp] theorem toList_escape (s : String) : (escape s).toList = escapeChars s.toList :=
  String.toList_ofList

end Templating.Text
