import Templating.Expr.Basic
import Templating.Template.Position

/-!
# Template trees

A parsed template is a list of nodes. Blocks own their children, so nesting is settled once when the
template is parsed and rendering only walks the tree. Every node keeps its location.
-/

namespace Templating

inductive AssetKind where
  | asset
  | vite
deriving DecidableEq, Repr

inductive Node where
  | text (content : String) (loc : Location)
  | interpolation (expr : Expr) (escape : Bool) (loc : Location)
  | conditional (condition : Expr) (consequent : List Node) (alternate : Option (List Node))
      (loc : Location)
  | loop (source : Expr) (key : Option String) (item : String) (body : List Node) (loc : Location)
  | includeView (view : Expr) (loc : Location)
  | errorBlock (field : Expr) (body : List Node) (oneLine : Bool) (loc : Location)
  | yieldSection (name : Expr) (default : Option Expr) (loc : Location)
  | sectionBlock (name : String) (body : List Node) (loc : Location)
  | sectionValue (name : String) (value : Expr) (loc : Location)
  | extendsLayout (layout : String) (loc : Location)
  | csrf (loc : Location)
  | asset (kind : AssetKind) (paths : Expr) (loc : Location)
deriving Inhabited

namespace Node

def location : Node → Location
  | .text _ loc => loc
  | .interpolation _ _ loc => loc
  | .conditional _ _ _ loc => loc
  | .loop _ _ _ _ loc => loc
  | .includeView _ loc => loc
  | .errorBlock _ _ _ loc => loc
  | .yieldSection _ _ loc => loc
  | .sectionBlock _ _ loc => loc
  | .sectionValue _ _ loc => loc
  | .extendsLayout _ loc => loc
  | .csrf loc => loc
  | .asset _ _ loc => loc

def isBlock : Node → Bool
  | .conditional .. | .loop .. | .errorBlock .. | .sectionBlock .. | .sectionValue .. => true
  | _ => false

def text? : Node → Option String
  | .text content _ => some content
  | _ => none

end Node

structure Root where
  children : List Node
  loc : Location
deriving Inhabited

end Templating
