import Templating.Entries
import Templating.Json.Basic
import Templating.Number.Basic

/-!
# Template data

The values that expressions compute with: those of JSON, with integers and doubles told apart and
maps kept in order.
-/

namespace Templating

inductive Value where
  | null
  | bool (value : Bool)
  | number (value : Number)
  | text (value : String)
  | list (items : List Value)
  | map (entries : List (String × Value))
deriving Inhabited

namespace Value

def int (n : Int) : Value := .number (.int n)

def nat (n : Nat) : Value := .number (.int n)

mutual

def toJson : Value → Json
  | .null => .null
  | .bool b => .bool b
  | .number n => .number n.toJson
  | .text s => .string s
  | .list items => .array (toJsonItems items)
  | .map entries => .object (toJsonEntries entries)

def toJsonItems : List Value → List Json
  | [] => []
  | item :: items => toJson item :: toJsonItems items

def toJsonEntries : List (String × Value) → List (String × Json)
  | [] => []
  | (name, value) :: entries => (name, toJson value) :: toJsonEntries entries

end

def jsonText (v : Value) : String :=
  v.toJson.compact

mutual

/-- The value a document holds; none when a string or a name has no text or a number is past the
largest double. -/
def ofJson? : Json → Option Value
  | .null => some .null
  | .bool b => some (.bool b)
  | .number literal => (Number.ofJsonLiteral? literal).map .number
  | .string s => some (.text s)
  | .broken => none
  | .array items => (ofJsonItems? items).map .list
  | .object members => (ofJsonMembers? [] members).map .map

def ofJsonItems? : List Json → Option (List Value)
  | [] => some []
  | item :: items =>
    match ofJson? item, ofJsonItems? items with
    | some value, some values => some (value :: values)
    | _, _ => none

/-- The entries of the members of an object, added to those already read: the value of a repeated
name is replaced in its place. -/
def ofJsonMembers? (entries : List (String × Value)) :
    List (String × Json) → Option (List (String × Value))
  | [] => some entries
  | (name, member) :: members =>
    match ofJson? member with
    | some value => ofJsonMembers? (Entries.insert name value entries) members
    | none => none

end

end Value

end Templating
