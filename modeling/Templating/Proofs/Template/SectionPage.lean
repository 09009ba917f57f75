import Templating.Proofs.Expr.StaticNames
import Templating.Proofs.Template.Arguments
import Templating.Proofs.Template.Concatenation
import Templating.Proofs.Template.Verbatim

/-!
# A page with one section

How a page is parsed that extends a layout and has one section, which holds text
(`Builder.parseTemplate_sectionPage`), and a layout that is the place for one section
(`Builder.parseTemplate_placeLayout`). Both are given the name of the section in the same words.
-/

namespace Templating

open Text

/-- A page that extends the layout `l` and has one section, which holds a text. -/
def sectionPage (args text : String) : String :=
  "@extends('l')" ++ ("@section(" ++ args ++ ")" ++ text ++ "@endsection")

def placeLayout (args : String) : String :=
  "@yield(" ++ args ++ ")"

/-! ## Characters between directives -/

namespace Piece

variable {m : Markers} {cs : List Char}

theorem spares_standard (hraw : ¬Markers.standard.raw.opening <:+: cs)
    (hescaped : ¬Markers.standard.escaped.opening <:+: cs) : Spares .standard cs where
  sign := fun escape => by cases escape <;> decide
  opening := fun escape => by
    cases escape
    · exact hraw
    · exact hescaped

theorem prefix_of_prefix_before_sign {l cs more : List Char} (hl : '@' ∉ l)
    (h : l <+: cs ++ '@' :: more) : l <+: cs := by
  rcases List.prefix_or_prefix_of_prefix h (List.prefix_append cs _) with hprefix | ⟨back, rfl⟩
  · exact hprefix
  · rw [List.prefix_append_right_inj] at h
    cases back with
    | nil => rw [List.append_nil]
    | cons c back =>
      obtain rfl := (List.cons_prefix_cons.1 h).1
      exact absurd (List.mem_append_right cs List.mem_cons_self) hl

/-- Text in which nothing opens is cut into its characters, up to the next sign. -/
theorem pieces_before_sign (h : Spares m cs) (hsign : '@' ∉ cs) (more : List Char) :
    pieces m (cs ++ '@' :: more) =
      cs.map (fun c => .text [c]) ++ pieces m ('@' :: more) := by
  induction cs with
  | nil => rfl
  | cons c cs ih =>
    obtain ⟨hc, hrest⟩ := List.ne_and_not_mem_of_not_mem_cons hsign
    have hopens (escape : Bool) : opens (m.delimiters escape) (c :: (cs ++ '@' :: more)) = false := by
      rw [Bool.eq_false_iff]
      intro hopens
      simp only [opens, Bool.and_eq_true, List.isPrefixOf_iff_prefix] at hopens
      exact h.opening escape (prefix_of_prefix_before_sign (h.sign escape) hopens.2).isInfix
    have hcut : cut m c (cs ++ '@' :: more) = (.text [c], cs ++ '@' :: more) := by
      have hescaped : opens m.escaped (c :: (cs ++ '@' :: more)) = false := hopens true
      have hraw : opens m.raw (c :: (cs ++ '@' :: more)) = false := hopens false
      rw [cut, if_neg hc.symm, hescaped, if_neg Bool.false_ne_true, hraw,
        if_neg Bool.false_ne_true]
    rw [List.cons_append, pieces, hcut, ih (h.of_suffix (List.suffix_cons c cs)) hrest]
    rfl

end Piece

namespace Token

theorem tokensFrom_chars (offset : Nat) (cs : List Char) (ps : List Piece) :
    tokensFrom offset (cs.map (fun c => .text [c]) ++ ps) =
      (cs ++ (tokensFrom (offset + byteLength cs) ps).1,
        (tokensFrom (offset + byteLength cs) ps).2) := by
  induction cs generalizing offset with
  | nil => rfl
  | cons c cs ih =>
    have hoffset : offset + byteLength [c] + byteLength cs = offset + byteLength (c :: cs) := by
      simp [Nat.add_assoc]
    rw [List.map_cons, List.cons_append, tokensFrom]
    simp only [Piece.source, ih, hoffset]
    rfl

theorem laid_chars (offset : Nat) (cs : List Char) (kind : Directive) (lexeme : List Char)
    (args : Option (List Char)) (ps : List Piece) :
    laid offset (cs.map (fun c => .text [c]) ++ .directive kind lexeme args :: ps) =
      ofText offset cs ++ laid (offset + byteLength cs) (.directive kind lexeme args :: ps) := by
  simp [laid, tokensFrom_chars, tokensFrom, ofText]

end Token

/-! ## The page and the layout -/

variable {m : Markers} {args text : String} {name : Expr}

theorem pieces_placeLayout (m : Markers) (h : Expr.parse? args = .ok name) :
    Piece.pieces m (placeLayout args).toList =
      [.directive .yieldSection (placeLayout args).toList (some args.toList)] := by
  have hwritten : (placeLayout args).toList = Piece.written .yieldSection [] args.toList ++ [] := by
    simp [placeLayout, Piece.written, Directive.word]
  rw [hwritten, Piece.pieces_written m rfl (List.forall_mem_nil _) (Piece.spanArgs?_of_parse? h []),
    List.append_nil, Piece.pieces_nil]

/-- The parts of the page: two directives, the characters of the text, and the end of the section. -/
theorem pieces_sectionPage (h : Expr.parse? args = .ok name) (htext : Piece.Spares m text.toList)
    (hsign : '@' ∉ text.toList) :
    Piece.pieces m (sectionPage args text).toList =
      .directive .extendsLayout (Piece.written .extendsLayout [] "'l'".toList) (some "'l'".toList) ::
        .directive .openSection (Piece.written .openSection [] args.toList) (some args.toList) ::
          (text.toList.map (fun c => .text [c]) ++
            [.directive .endSection ('@' :: Directive.endSection.word.toList) none]) := by
  have hlayout : Expr.parse? "'l'" = .ok (.text "l") := by cbv
  have hpage : (sectionPage args text).toList =
      Piece.written .extendsLayout [] "'l'".toList ++ (Piece.written .openSection [] args.toList ++
        (text.toList ++ '@' :: Directive.endSection.word.toList)) := by
    have hextends : "@extends('l')".toList = Piece.written .extendsLayout [] "'l'".toList := by
      decide
    rw [← hextends]
    simp [sectionPage, Piece.written, Directive.word]
  have hend : Piece.pieces m ('@' :: Directive.endSection.word.toList) =
      [.directive .endSection ('@' :: Directive.endSection.word.toList) none] := by
    have hbare : Piece.pieces m ('@' :: Directive.endSection.word.toList ++ []) = _ :=
      Piece.pieces_bare m rfl rfl
    rwa [List.append_nil, Piece.pieces_nil] at hbare
  rw [hpage, Piece.pieces_written m rfl (List.forall_mem_nil _) (Piece.spanArgs?_of_parse? hlayout _),
    Piece.pieces_written m rfl (List.forall_mem_nil _) (Piece.spanArgs?_of_parse? h _),
    Piece.pieces_before_sign htext hsign, hend]

structure HoldsText (ns : List Node) (text : String) : Prop where
  texts : ∀ n ∈ ns, n.text?.isSome = true
  text_eq : ns.flatMap (fun n => (n.text?.getD "").toList) = text.toList

namespace Builder

theorem exists_foldl_ofText (source : Source) (start : Nat) (text : String)
    (errors : List TemplateError) (blocks : List OpenBlock) :
    ∃ body, (Token.ofText start text.toList).foldl (take source) ⟨⟨[], errors⟩, blocks⟩ =
      ⟨⟨body, errors⟩, blocks⟩ ∧ HoldsText body.reverse text := by
  by_cases hempty : text.toList = []
  · rw [hempty]
    exact ⟨[], rfl, List.forall_mem_nil _, hempty.symm⟩
  · rw [Token.ofText, if_neg (by simpa using hempty)]
    refine ⟨_, rfl, List.forall_mem_singleton.2 rfl, ?_⟩
    simp [Draft.consText, Node.text?]

theorem parseTemplate_of_read {source : String} {ns : List Node}
    (hread : read m source.toList = ⟨⟨ns, []⟩, []⟩)
    (hclosed : ∀ p ∈ Piece.pieces m source.toList, p.isUnclosed = false) :
    (parseTemplate m source).errors = [] ∧
      (parseTemplate m source).root.children = ns.reverse := by
  have hearly : Token.errors m source.toList = [] := by
    rw [Token.errors_eq_errorsFrom, Token.errorsFrom_eq_nil_iff]
    exact hclosed
  rw [errors_parseTemplate, children_parseTemplate, built, hread, hearly]
  exact ⟨rfl, rfl⟩

variable {t : Token} {title : String}

theorem take_extends (source : Source) (ht : t.kind = .directive .extendsLayout (some "'l'".toList)) :
    ∃ loc, take source ⟨Draft.empty, []⟩ t = ⟨⟨[.extendsLayout "l" loc], []⟩, []⟩ := by
  have hlayout : Expr.parseArguments (String.ofList "'l'".toList) = [.text "l"] := by cbv
  rw [take_other ht List.not_mem_nil, takeOther]
  simp only [Draft.enter, Draft.pushLayout, Option.getD_some, hlayout]
  exact ⟨_, rfl⟩

theorem take_section (hargs : Expr.parseArguments args = [name])
    (htitle : name.staticName? = some title)
    (ht : t.kind = .directive .openSection (some args.toList)) (source : Source) (d : Draft) :
    take source ⟨d, []⟩ t =
      ⟨{ d with nodes := [] }, [⟨.sectionBlock title, t.start, t.stop, d.nodes⟩]⟩ := by
  rw [take_other ht List.not_mem_nil, takeOther]
  simp only [Draft.enter, Draft.enterSection, Option.getD_some, String.ofList_toList, hargs, htitle]

theorem take_endSection (ht : t.kind = .directive .endSection none) {block : OpenBlock}
    (hblock : block.opened = .sectionBlock title) (source : Source) (d : Draft) :
    ∃ loc, take source ⟨d, [block]⟩ t =
      ⟨{ d with nodes := .sectionBlock title d.nodes.reverse loc :: block.before }, []⟩ := by
  have hstop : Directive.endSection ∈ block.opened.stops := by
    rw [hblock]
    exact List.mem_singleton_self _
  rw [take_stop ht hstop, takeStop, if_neg Directive.noConfusion, OpenBlock.close, hblock]
  exact ⟨_, rfl⟩

theorem parseTemplate_placeLayout (hargs : Expr.parseArguments args = [name])
    (hname : name.staticName?.isSome = true) (m : Markers) :
    (parseTemplate m (placeLayout args)).errors = [] ∧
      ∃ loc, (parseTemplate m (placeLayout args)).root.children = [.yieldSection name none loc] := by
  have hpieces := pieces_placeLayout m (Expr.parse?_of_staticName? hargs hname)
  obtain ⟨loc, hread⟩ : ∃ loc, read m (placeLayout args).toList =
      ⟨⟨[.yieldSection name none loc], []⟩, []⟩ := by
    rw [read, ← Token.laid_pieces, hpieces, Token.laid_directive, List.foldl_cons,
      take_other rfl List.not_mem_nil, takeOther]
    simp only [Draft.enter, Draft.yieldNode, Option.getD_some, String.ofList_toList, hargs]
    exact ⟨_, rfl⟩
  obtain ⟨herrors, hchildren⟩ := parseTemplate_of_read hread (hpieces ▸ by simp [Piece.isUnclosed])
  exact ⟨herrors, loc, hchildren⟩

/-- The tokens of the page leave the section behind the name of the layout. -/
theorem exists_foldl_section (hargs : Expr.parseArguments args = [name])
    (htitle : name.staticName? = some title) {first second last : Token}
    (hfirst : first.kind = .directive .extendsLayout (some "'l'".toList))
    (hsecond : second.kind = .directive .openSection (some args.toList))
    (hlast : last.kind = .directive .endSection none) (source : Source) (start : Nat)
    (text : String) :
    ∃ loc loc' body,
      (first :: second :: (Token.ofText start text.toList ++ [last])).foldl (take source)
          ⟨Draft.empty, []⟩ =
        ⟨⟨[.sectionBlock title body loc', .extendsLayout "l" loc], []⟩, []⟩ ∧
      HoldsText body text := by
  obtain ⟨loc, hextends⟩ := take_extends source hfirst
  let block : OpenBlock :=
    ⟨.sectionBlock title, second.start, second.stop, [.extendsLayout "l" loc]⟩
  obtain ⟨body, hfold, hbody⟩ := exists_foldl_ofText source start text [] [block]
  have hblock : block.opened = .sectionBlock title := rfl
  obtain ⟨loc', hend⟩ := take_endSection hlast hblock source ⟨body, []⟩
  refine ⟨loc, loc', body.reverse, ?_, hbody⟩
  rw [List.foldl_cons, List.foldl_cons, List.foldl_append, hextends,
    take_section hargs htitle hsecond, hfold, List.foldl_cons, hend]
  rfl

theorem parseTemplate_sectionPage (hargs : Expr.parseArguments args = [name])
    (htitle : name.staticName? = some title) (htext : Piece.Spares m text.toList)
    (hsign : '@' ∉ text.toList) :
    (parseTemplate m (sectionPage args text)).errors = [] ∧
      ∃ loc loc' body, (parseTemplate m (sectionPage args text)).root.children =
          [.extendsLayout "l" loc, .sectionBlock title body loc'] ∧ HoldsText body text := by
  have hpieces := pieces_sectionPage (Expr.parse?_of_staticName? hargs (Option.isSome_of_mem htitle))
    htext hsign
  obtain ⟨loc, loc', body, hread, hbody⟩ : ∃ loc loc' body,
      read m (sectionPage args text).toList =
        ⟨⟨[.sectionBlock title body loc', .extendsLayout "l" loc], []⟩, []⟩ ∧
      HoldsText body text := by
    rw [read, ← Token.laid_pieces, hpieces, Token.laid_directive, Token.laid_directive,
      Token.laid_chars, Token.laid_directive]
    exact exists_foldl_section hargs htitle rfl rfl rfl _ _ text
  have hclosed : ∀ p ∈ Piece.pieces m (sectionPage args text).toList, p.isUnclosed = false := by
    intro p hp
    rw [hpieces] at hp
    simp only [List.mem_cons, List.mem_append, List.mem_map, List.not_mem_nil, or_false] at hp
    obtain rfl | rfl | ⟨c, -, rfl⟩ | rfl := hp <;> rfl
  obtain ⟨herrors, hchildren⟩ := parseTemplate_of_read hread hclosed
  exact ⟨herrors, loc, loc', body, hchildren, hbody⟩

end Builder

end Templating
