import Mathlib
import Templating.Host.Assets
import Templating.Proofs.Text.Entities
import Templating.Proofs.Template.Verbatim
import Templating.Render.Tree

/-!
# Markup that data cannot break out of

What a template shows with entities is inert text and stands for what it shows without them, and the
tags of the host are one element each, whatever they are given. `Element.read?` reads an element as a
browser does: a value in double quotes goes up to the next quote, and its entities are read back after
that. The elements that are read have the very values that were put in (`markup_contained`).
-/

namespace Templating

/-- An element without content: its name and its attributes in their order. -/
structure Element where
  name : String
  attributes : List (String × String)
deriving DecidableEq

namespace Element

def withAttribute (e : Element) (name value : String) : Element :=
  { e with attributes := e.attributes ++ [(name, value)] }

/-- What has been read of an opening tag: a part of its name, of the name of an attribute or of its
value in quotes; or all of it up to where a value begins or has ended. -/
inductive Progress where
  | name (read : List Char)
  | key (e : Element) (read : List Char)
  | opening (e : Element) (key : String)
  | value (e : Element) (key : String) (read : List Char)
  | behind (e : Element)

def readTag? : Progress → List Char → Option (Element × List Char)
  | _, [] => none
  | .name read, c :: cs =>
    if c = ' ' then readTag? (.key ⟨String.ofList read, []⟩ []) cs
    else if c = '>' then some (⟨String.ofList read, []⟩, cs)
    else readTag? (.name (read ++ [c])) cs
  | .key e read, c :: cs =>
    if c = '=' then readTag? (.opening e (String.ofList read)) cs
    else readTag? (.key e (read ++ [c])) cs
  | .opening e key, c :: cs =>
    if c = '\x22' then readTag? (.value e key []) cs else none
  | .value e key read, c :: cs =>
    if c = '\x22' then
      readTag? (.behind (e.withAttribute key (Text.unescape (String.ofList read)))) cs
    else readTag? (.value e key (read ++ [c])) cs
  | .behind e, c :: cs =>
    if c = ' ' then readTag? (.key e []) cs
    else if c = '>' then some (e, cs)
    else none

/-- The closing tag of an element of that name; there is none of these two. -/
def closingTag (name : String) : List Char :=
  if name = "input" ∨ name = "link" then [] else "</".toList ++ name.toList ++ ['>']

/-- The element that a text is: an opening tag, and its closing tag right behind it unless it has
none. -/
def read? (text : String) : Option Element :=
  match text.toList with
  | '<' :: cs =>
    match readTag? (.name []) cs with
    | some (e, rest) =>
      if rest = closingTag e.name then some e else none
    | none => none
  | _ => none

theorem readTag?_value (e : Element) (key : String) (read : List Char) {cs : List Char}
    (h : '\x22' ∉ cs) (rest : List Char) :
    readTag? (.value e key read) (cs ++ '\x22' :: rest) =
      readTag? (.behind (e.withAttribute key (Text.unescape (String.ofList (read ++ cs))))) rest := by
  induction cs generalizing read with
  | nil => rw [List.nil_append, readTag?, if_pos rfl, List.append_nil]
  | cons c cs ih =>
    obtain ⟨hc, hcs⟩ := not_or.1 (List.mem_cons.not.1 h)
    rw [List.cons_append, readTag?, if_neg fun heq => hc heq.symm, ih _ hcs, List.append_assoc,
      List.singleton_append]

/-- An escaped value is read back, and ends at its own quote. -/
theorem readTag?_escape (e : Element) (key value : String) (rest : List Char) :
    readTag? (.value e key []) ((Text.escape value).toList ++ '\x22' :: rest) =
      readTag? (.behind (e.withAttribute key value)) rest := by
  have hinert := Text.inert_escapeChars value.toList
  rw [Text.toList_escape, readTag?_value e key [] hinert.quote_notMem, List.nil_append]
  rw [← Text.escape, Text.unescape_escape]

/-- An opening tag with an escaped value at its end is one element, with this value. -/
theorem read?_escape (e : Element) (key : String) {front back : String} {cs : List Char}
    (hfront : front.toList = '<' :: cs)
    (htag : ∀ rest, readTag? (.name []) (cs ++ rest) = readTag? (.value e key []) rest)
    (hback : back.toList = '\x22' :: '>' :: closingTag e.name) (value : String) :
    read? (front ++ Text.escape value ++ back) = some (e.withAttribute key value) := by
  have htext : (front ++ Text.escape value ++ back).toList =
      '<' :: (cs ++ ((Text.escape value).toList ++ back.toList)) := by
    rw [String.toList_append, String.toList_append, hfront, List.append_assoc, List.cons_append]
  have hread : readTag? (.name []) (cs ++ ((Text.escape value).toList ++ back.toList)) =
      some (e.withAttribute key value, closingTag e.name) := by
    rw [htag, hback, readTag?_escape, readTag?, if_neg (by decide), if_pos rfl]
  simp only [read?, htext, hread]
  exact if_pos rfl

theorem ne_empty_of_read? {text : String} {e : Element} (h : read? text = some e) : text ≠ "" := by
  rintro rfl
  cases h

end Element

theorem read?_tokenField (token : String) : Element.read? (tokenField (some token)) =
    some ⟨"input", [("type", "hidden"), ("name", "_token"), ("value", token)]⟩ :=
  Element.read?_escape ⟨"input", [("type", "hidden"), ("name", "_token")]⟩ "value"
    rfl (fun _ => rfl) rfl token

namespace Assets

/-- `url` is the base without the slashes at its end, a slash, and the path without the slashes at its
beginning. -/
def Joins (base path url : String) : Prop :=
  ∃ (front rest : List Char) (n m : Nat), base.toList = front ++ List.replicate n '/' ∧
    front.getLast? ≠ some '/' ∧ path.toList = List.replicate m '/' ++ rest ∧
    rest.head? ≠ some '/' ∧ url.toList = front ++ '/' :: rest

theorem exists_replicate_append_dropWhile (cs : List Char) :
    (∃ n, cs = List.replicate n '/' ++ cs.dropWhile (· == '/')) ∧
      (cs.dropWhile (· == '/')).head? ≠ some '/' := by
  constructor
  · have hslashes : cs.takeWhile (· == '/') = List.replicate (cs.takeWhile (· == '/')).length '/' :=
      List.eq_replicate_of_mem fun c hc => eq_of_beq (List.mem_takeWhile_imp (p := (· == '/')) hc)
    refine ⟨(cs.takeWhile (· == '/')).length, ?_⟩
    rw [← hslashes, List.takeWhile_append_dropWhile]
  · intro hhead
    have := List.head?_dropWhile_not (· == '/') cs
    rw [hhead] at this
    cases this

theorem joins_url (base path : String) : Joins base path (url base path) := by
  obtain ⟨⟨n, hbase⟩, hfront⟩ := exists_replicate_append_dropWhile base.toList.reverse
  obtain ⟨⟨m, hpath⟩, hrest⟩ := exists_replicate_append_dropWhile path.toList
  refine ⟨_, _, n, m, ?_, ?_, hpath, hrest, String.toList_ofList⟩
  · have hreverse := congrArg List.reverse hbase
    rwa [List.reverse_reverse, List.reverse_append, List.reverse_replicate] at hreverse
  · rwa [List.getLast?_reverse]

theorem read?_scriptTag {path : String} (h : isStylesheet path = false) (base : String)
    (devServer : Bool) : Element.read? ((served base devServer).scriptTag path) =
      some ⟨"script", [("type", "module"), ("src", url base path)]⟩ := by
  change Element.read? (scriptFrom base path) = _
  rw [scriptFrom, h, if_neg Bool.false_ne_true]
  exact Element.read?_escape ⟨"script", [("type", "module")]⟩ "src" rfl (fun _ => rfl) rfl _

theorem read?_styleTag {path : String} (h : isStylesheet path = true) (base : String)
    (devServer : Bool) : Element.read? ((served base devServer).styleTag path) =
      some ⟨"link", [("rel", "stylesheet"), ("href", url base path)]⟩ := by
  change Element.read? (styleFrom base path) = _
  rw [styleFrom, if_pos h]
  exact Element.read?_escape ⟨"link", [("rel", "stylesheet")]⟩ "href" rfl (fun _ => rfl) rfl _

theorem not_isStylesheet_client : isStylesheet "@vite/client" = false := by
  decide +kernel

end Assets

/-- Data does not break out of escaped markup. In every place of a template the escaped output of an
expression is inert, and what it stands for is the output that is not escaped; the delimiters of the
template tell the one from the other. The tags of the host are empty or one element each, and the
attribute that data goes into has this data as its value: the token, or the base and the path with one
slash between them. -/
theorem markup_contained :
    (∀ (r : Renderer) (enter : Enter) (f : Frame) (s : RenderState) (e : Expr) (loc loc' : Location),
      ∃ plain escaped, r.renderNode enter f (.interpolation e false loc) s = (.ok plain, s) ∧
        r.renderNode enter f (.interpolation e true loc') s = (.ok escaped, s) ∧
        Text.Inert escaped.toList ∧ Text.unescape escaped = plain) ∧
    (∀ (escape : Bool) (content : List Char), let d := Markers.standard.delimiters escape
      Piece.spanContent? d.closing (content ++ d.closing) = some (content, []) →
        ∃ loc, (parseTemplate Markers.standard
          (String.ofList (d.opening ++ content ++ d.closing))).root.children =
            [.interpolation (Expr.parse (String.ofList content)) escape loc]) ∧
    (tokenField none = "" ∧ ∀ token, Element.read? (tokenField (some token)) =
      some ⟨"input", [("type", "hidden"), ("name", "_token"), ("value", token)]⟩) ∧
    (∀ path, Assets.absent.styleTag path = "" ∧ Assets.absent.scriptTag path = "") ∧
    (∀ base devServer path, let assets := Assets.served base devServer
      Xor (assets.styleTag path ≠ "") (assets.scriptTag path ≠ "") ∧
      ∃ url, Assets.Joins base path url ∧
        (assets.styleTag path ≠ "" → Element.read? (assets.styleTag path) =
          some ⟨"link", [("rel", "stylesheet"), ("href", url)]⟩) ∧
        (assets.scriptTag path ≠ "" → Element.read? (assets.scriptTag path) =
          some ⟨"script", [("type", "module"), ("src", url)]⟩)) ∧
    Assets.absent.clientScript = "" ∧
    ∀ base, (Assets.served base false).clientScript = "" ∧
      ∃ url, Assets.Joins base "@vite/client" url ∧
        Element.read? (Assets.served base true).clientScript =
          some ⟨"script", [("type", "module"), ("src", url)]⟩ := by
  refine ⟨fun r enter f s e loc loc' => ?_, fun escape content => ?_, ⟨rfl, read?_tokenField⟩,
    fun path => ⟨rfl, rfl⟩, fun base devServer path => ?_, rfl, fun base => ?_⟩
  · let plain := r.evaluator.output s.context e
    have hinert : Text.Inert (Text.escape plain).toList := by
      rw [Text.toList_escape]
      exact Text.inert_escapeChars plain.toList
    refine ⟨plain, Text.escape plain, ?_, ?_, hinert, Text.unescape_escape plain⟩
    · rw [Renderer.renderNode]
      rfl
    · rw [Renderer.renderNode]
      rfl
  · intro d hspan
    exact (parseTemplate_interpolation escape hspan).2
  · intro assets
    cases hsheet : Assets.isStylesheet path with
    | true =>
      have hread := Assets.read?_styleTag hsheet base devServer
      have hnone : assets.scriptTag path = "" := if_pos hsheet
      exact ⟨.inl ⟨Element.ne_empty_of_read? hread, not_not.2 hnone⟩, _,
        Assets.joins_url base path, fun _ => hread, fun hne => absurd hnone hne⟩
    | false =>
      have hread := Assets.read?_scriptTag hsheet base devServer
      have hnone : assets.styleTag path = "" := if_neg (ne_true_of_eq_false hsheet)
      exact ⟨.inr ⟨Element.ne_empty_of_read? hread, not_not.2 hnone⟩, _,
        Assets.joins_url base path, fun hne => absurd hnone hne, fun _ => hread⟩
  · exact ⟨rfl, _, Assets.joins_url base _,
      Assets.read?_scriptTag Assets.not_isStylesheet_client base true⟩

/-- A token that would end the attribute and the tag, an escaped variable, and a stylesheet with
slashes on both sides of the joint. -/
theorem markup_contained_quote :
    let d := Markers.standard.delimiters true
    let assets := Assets.served "/build/" false
    Element.read? (tokenField (some "\x22>")) =
        some ⟨"input", [("type", "hidden"), ("name", "_token"), ("value", "\x22>")]⟩ ∧
      Piece.spanContent? d.closing (['$', 'x'] ++ d.closing) = some (['$', 'x'], []) ∧
      (∃ loc, (parseTemplate Markers.standard
          (String.ofList (d.opening ++ ['$', 'x'] ++ d.closing))).root.children =
        [.interpolation (Expr.parse (String.ofList ['$', 'x'])) true loc]) ∧
      ∃ url, Assets.Joins "/build/" "/app.css" url ∧ Element.read? (assets.styleTag "/app.css") =
        some ⟨"link", [("rel", "stylesheet"), ("href", url)]⟩ := by
  intro d assets
  obtain ⟨-, hinterpolation, ⟨-, hfield⟩, -, htags, -⟩ := markup_contained
  have hspan : Piece.spanContent? d.closing (['$', 'x'] ++ d.closing) = some (['$', 'x'], []) := by
    decide +kernel
  have hstyle : assets.styleTag "/app.css" ≠ "" := by decide +kernel
  obtain ⟨-, url, hjoins, hread, -⟩ := htags "/build/" false "/app.css"
  exact ⟨hfield _, hspan, hinterpolation true _ hspan, url, hjoins, hread hstyle⟩

end Templating
