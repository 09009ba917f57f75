import Templating.Expr.Document
import Templating.Template.Error
import Templating.Template.Node

/-!
# Templates as documents

The JSON form of template trees and template errors.
-/

namespace Templating

def Position.toJson (p : Position) : Json :=
  .object [("offset", .nat p.offset), ("line", .nat p.line), ("column", .nat p.column)]

def Location.toJson (l : Location) : Json :=
  .object [("start", l.start.toJson), ("end", l.stop.toJson)]

def AssetKind.label : AssetKind → String
  | .asset => "Asset"
  | .vite => "Vite"

def Json.optional {α : Type} (f : α → Json) (a : Option α) : Json :=
  a.elim .null f

namespace Node

mutual

def toJson : Node → Json
  | .text content loc => .node "Text" [("content", .string content), ("loc", loc.toJson)]
  | .interpolation expr escape loc =>
    .node "Interpolation" [("expr", expr.toJson), ("escape", .bool escape), ("loc", loc.toJson)]
  | .conditional condition consequent none loc =>
    .node "If" [("condition", condition.toJson), ("consequent", .array (toJsonItems consequent)),
      ("alternate", .null), ("loc", loc.toJson)]
  | .conditional condition consequent (some alternate) loc =>
    .node "If" [("condition", condition.toJson), ("consequent", .array (toJsonItems consequent)),
      ("alternate", .array (toJsonItems alternate)), ("loc", loc.toJson)]
  | .loop source key item body loc =>
    .node "ForEach" [("source", source.toJson), ("key", .optional .string key),
      ("item", .string item), ("body", .array (toJsonItems body)), ("loc", loc.toJson)]
  | .includeView view loc => .node "Include" [("view", view.toJson), ("loc", loc.toJson)]
  | .errorBlock field body oneLine loc =>
    .node "Error" [("field", field.toJson), ("body", .array (toJsonItems body)),
      ("inline", .bool oneLine), ("loc", loc.toJson)]
  | .yieldSection name default loc =>
    .node "Yield" [("name", name.toJson), ("default", .optional Expr.toJson default),
      ("loc", loc.toJson)]
  | .sectionBlock name body loc =>
    .node "Section" [("name", .string name),
      ("body", .object [("Block", .array (toJsonItems body))]), ("loc", loc.toJson)]
  | .sectionValue name value loc =>
    .node "Section" [("name", .string name), ("body", .object [("Inline", value.toJson)]),
      ("loc", loc.toJson)]
  | .extendsLayout layout loc =>
    .node "Extends" [("layout", .string layout), ("loc", loc.toJson)]
  | .csrf loc => .node "Csrf" [("loc", loc.toJson)]
  | .asset kind paths loc =>
    .node "Asset" [("kind", .string kind.label), ("paths", paths.toJson), ("loc", loc.toJson)]

def toJsonItems : List Node → List Json
  | [] => []
  | n :: ns => toJson n :: toJsonItems ns

end

end Node

def Root.toJson (r : Root) : Json :=
  .object [("children", .array (Node.toJsonItems r.children)), ("loc", r.loc.toJson)]

def TemplateError.toJson (e : TemplateError) : Json :=
  .object [("code", .string e.fault.label), ("loc", e.loc.toJson), ("message", .string e.message)]

end Templating
