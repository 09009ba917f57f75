import Templating.Host.ViewFiles
import Templating.Json.Reader
import Templating.Number.Basic
import Templating.Render.State

/-!
# Configuration

What a project sets in its configuration file, how it is read from a document, and how it is written
as one. A group of settings is an object, or an array with the settings in their order, the last
ones left out at will. Unknown members are passed over; a known one must not be repeated. A setting
that may be absent may also be null.
-/

namespace Templating

structure ViewSettings where
  root : Option String
  extension : Option String
deriving DecidableEq, Repr

structure RenderSettings where
  strict : Option Bool
  maxDepth : Option Nat
  rawDelimiters : Option (String × String)
  escapedDelimiters : Option (String × String)
  assetBase : Option String
  devServer : Bool
deriving DecidableEq, Repr

structure Config where
  schema : Option String
  views : ViewSettings
  render : RenderSettings
deriving DecidableEq, Repr

namespace Config

def noViews : ViewSettings := ⟨none, none⟩

def noRender : RenderSettings := ⟨none, none, none, none, none, false⟩

def standard : Config := ⟨none, noViews, noRender⟩

def viewsRoot (c : Config) : String :=
  c.views.root.getD "views"

def extension (c : Config) : String :=
  c.views.extension.getD ViewFiles.standardExtension

def delimitersOr (default : Delimiters) : Option (String × String) → Delimiters
  | none => default
  | some (opening, closing) => ⟨opening.toList, closing.toList⟩

def renderOptions (c : Config) : RenderOptions where
  strict := c.render.strict.getD RenderOptions.standard.strict
  maxDepth := c.render.maxDepth.getD RenderOptions.standard.maxDepth
  markers :=
    { raw := delimitersOr Markers.standard.raw c.render.rawDelimiters
      escaped := delimitersOr Markers.standard.escaped c.render.escapedDelimiters }

/-! ## Reading -/

/-- A known member: none when it is repeated, an absent document when it is missing. -/
def member? (name : String) (members : List (String × Json)) : Option (Option Json) :=
  match members.filter (·.1 == name) with
  | [] => some none
  | [(_, value)] => some (some value)
  | _ => none

/-- The documents of a group of settings by their names, absent ones included; none when the
document is no group or one of the settings is repeated. -/
def group? (names : List String) : Json → Option (List (Option Json))
  | .object members => names.mapM (member? · members)
  | .array items =>
    if items.length ≤ names.length then
      some (items.map some ++ List.replicate (names.length - items.length) none)
    else none
  | _ => none

/-- A setting that may be absent or null. -/
def optional? {α : Type} (read : Json → Option α) : Option Json → Option (Option α)
  | none | some .null => some none
  | some j => (read j).map some

/-- A setting that may be absent but not null. -/
def defaulted? {α : Type} (read : Json → Option α) (default : α) : Option Json → Option α
  | none => some default
  | some j => read j

def text? : Json → Option String
  | .string s => some s
  | _ => none

def bool? : Json → Option Bool
  | .bool b => some b
  | _ => none

/-- A natural number of 64 bits, written without point and exponent. -/
def nat? : Json → Option Nat
  | .number literal =>
    (Number.readDigits? literal.toList).filter fun n => (n : Int) ≤ Number.maxUInt64
  | _ => none

def pair? : Json → Option (String × String)
  | .array [.string a, .string b] => some (a, b)
  | _ => none

def views? (j : Json) : Option ViewSettings :=
  match group? ["root", "extension"] j with
  | some [root, extension] => do
    let root ← optional? text? root
    let extension ← optional? text? extension
    return ⟨root, extension⟩
  | _ => none

def render? (j : Json) : Option RenderSettings :=
  match group? ["strict", "maxDepth", "rawDelimiters", "escapedDelimiters", "assetBase",
    "devServer"] j with
  | some [strict, maxDepth, raw, escaped, assetBase, devServer] => do
    let strict ← optional? bool? strict
    let maxDepth ← optional? nat? maxDepth
    let raw ← optional? pair? raw
    let escaped ← optional? pair? escaped
    let assetBase ← optional? text? assetBase
    let devServer ← defaulted? bool? false devServer
    return ⟨strict, maxDepth, raw, escaped, assetBase, devServer⟩
  | _ => none

def ofJson? (j : Json) : Option Config :=
  match group? ["$schema", "views", "render"] j with
  | some [schema, views, render] => do
    let schema ← optional? text? schema
    let views ← defaulted? views? noViews views
    let render ← defaulted? render? noRender render
    return ⟨schema, views, render⟩
  | _ => none

/-! ## Writing -/

def present {α : Type} (name : String) (write : α → Json) (a : Option α) : List (String × Json) :=
  a.elim [] fun a => [(name, write a)]

def pairJson (p : String × String) : Json :=
  .array [.string p.1, .string p.2]

def viewsJson (v : ViewSettings) : Json :=
  .object (present "root" .string v.root ++ present "extension" .string v.extension)

def renderJson (r : RenderSettings) : Json :=
  .object (present "strict" .bool r.strict ++ present "maxDepth" .nat r.maxDepth ++
    present "rawDelimiters" pairJson r.rawDelimiters ++
    present "escapedDelimiters" pairJson r.escapedDelimiters ++
    present "assetBase" .string r.assetBase ++ [("devServer", .bool r.devServer)])

def toJson (c : Config) : Json :=
  .object (present "$schema" .string c.schema ++
    [("views", viewsJson c.views), ("render", renderJson c.render)])

end Config

end Templating
