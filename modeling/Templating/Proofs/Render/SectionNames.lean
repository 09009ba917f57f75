import Templating.Proofs.Render.Verbatim
import Templating.Proofs.Template.SectionPage

/-!
# A section and the place for it

The name of a section is known when the template is parsed, but the name of a place is an expression
that the layout evaluates. For a text between quotes the two agree, so the section is shown in its
place. A bare word names the section, but in the layout it is a variable, and the variable of that
name is the text of the section: what stands in the place is looked up under this text
(`Renderer.section_in_place`).
-/

namespace Templating

variable {args text : String} {name : Expr}

theorem Section.ofNodes_texts {ns : List Node} (hns : ∀ n ∈ ns, n.text?.isSome = true) :
    ofNodes ns = [] := by
  induction ns with
  | nil => rfl
  | cons n ns ih =>
    obtain ⟨hn, hall⟩ := List.forall_mem_cons.1 hns
    cases n with
    | text content loc => simp [ofNodes, ofNode, ih hall]
    | _ => cases hn

namespace Renderer

variable {r : Renderer} {title : String} {f : Frame} {s : RenderState}

theorem shows_of_holdsText {ns : List Node} (h : HoldsText ns text) : r.Shows ns text := by
  have hshows := shows_texts (r := r) h.texts
  rwa [h.text_eq, String.ofList_toList] at hshows

def pageSections (title text : String) : Entries String :=
  handSections [] [(title, text)] ""

theorem renderRoot_sectionPage {root : Root} {layout : String} {loc loc' : Location}
    {body : List Node}
    (hchildren : root.children = [.extendsLayout layout loc, .sectionBlock title body loc'])
    (hbody : HoldsText body text) (hf : f.sections = []) (enter call : Enter) (s : RenderState) :
    r.renderRoot enter call f root s =
      let sections := pageSections title text
      let after := call { f with mode := .setAside, detached := true, sections := sections } layout
        { s with context := layoutContext s.context sections }
      (after.1, { after.2 with context := s.context }) := by
  have hlayout : Node.firstLayout? root.children = some layout := by
    rw [hchildren]
    rfl
  have hparts : Section.ofNodes root.children = [.block title body] := by
    rw [hchildren]
    simp [Section.ofNodes, Section.ofNode, Section.ofNodes_texts hbody.texts]
  have hnodes : r.renderNodes enter { f with mode := .setAside } root.children s = (.ok "", s) := by
    rw [hchildren]
    simp only [renderNodes, renderNode]
    rfl
  have hsection : r.renderSections enter { f with mode := .setAside } [] [.block title body] s =
      (.ok [(title, text)], s) := by
    have hnone : ¬Entries.contains title ([] : Entries String) = true := Bool.false_ne_true
    rw [renderSections, Section.name, if_neg hnone, Render.bind_apply, renderSection,
      shows_of_holdsText hbody]
    rfl
  rw [renderRoot, Render.bind_apply, hnodes]
  simp only [hlayout]
  rw [Render.bind_apply, hparts, hsection]
  simp only [hf]
  rfl

theorem renderRoot_placeLayout {root : Root} {loc : Location}
    (hchildren : root.children = [.yieldSection name none loc]) (enter call : Enter) (f : Frame)
    (s : RenderState) :
    r.renderRoot enter call f root s = (.ok (r.yieldText s.context f.sections name none), s) := by
  have hlayout : Node.firstLayout? root.children = none := by
    rw [hchildren]
    rfl
  have hnodes : r.renderNodes enter { f with mode := .setAside } root.children s =
      (.ok (r.yieldText s.context f.sections name none), s) := by
    rw [hchildren, renderNodes, renderNode, renderNodes]
    exact congrArg (fun text => (Except.ok text, s)) String.append_empty
  rw [renderRoot, Render.bind_apply, hnodes]
  simp only [hlayout]
  rfl

theorem renderPage_of_view {view : ViewSource} {viewName : String}
    (hview : r.views viewName = .ok view)
    (herrors : (parseTemplate r.options.markers view.source).errors = [])
    (hchain : viewName ∉ f.chain)
    (hcache : (r.parseCached viewName view.source s.cache).1 =
      parseTemplate r.options.markers view.source) (route : Route) (levels : Nat) :
    r.renderPage route (levels + 1) f viewName s =
      r.renderRoot (r.renderInclude levels) (r.renderPage .layout levels)
        { f with chain := viewName :: f.chain } (parseTemplate r.options.markers view.source).root
        { s with
          requests := ⟨viewName, route, f⟩ :: s.requests
          cache := (r.parseCached viewName view.source s.cache).2 } := by
  have hload := note_load_of_ok (q := ⟨viewName, route, f⟩) hview s
  rw [hcache, check_of_errors_eq_nil r herrors] at hload
  have hpage : r.page? route (levels + 1) f viewName s =
      some ⟨{ f with chain := viewName :: f.chain }, (parseTemplate r.options.markers view.source).root,
        levels, { s with
          requests := ⟨viewName, route, f⟩ :: s.requests
          cache := (r.parseCached viewName view.source s.cache).2 }⟩ := by
    have henter : enterFrame f viewName = .ok { f with chain := viewName :: f.chain } := if_neg hchain
    unfold page?
    simp only [hload, henter]
  rw [Page.renderPage_eq hpage]
  rfl

/-- What stands in the place of a section that holds `text`, when the place is given the name that the
section was given: the text, if this is a text. If it is a word, it stands for the text of the section
in the layout, and what is found under this text stands there: the section, if the text is the word,
the body of the page, which is empty, or a text of the context. -/
def shownInPlace (ctx : Context) (name : Expr) (text : String) : String :=
  match name with
  | .variable word _ =>
    if text = word then text
    else if text = contentName then ""
    else match ctx.find? text with
      | some (.text value) => value
      | _ => ""
  | _ => text

theorem find?_pageSections (title text wanted : String) :
    Entries.find? wanted (pageSections title text) =
      if wanted = title then some text else if wanted = contentName then some "" else none := by
  have hhanded : (Entries.names ([] : Entries String)).Nodup := List.nodup_nil
  have howned : Entries.find? wanted [(title, text)] = if wanted = title then some text else none := by
    rw [Entries.find?_cons]
    by_cases htitle : title = wanted
    · rw [if_pos htitle, if_pos htitle.symm]
    · rw [if_neg htitle, if_neg (Ne.symm htitle)]
      rfl
  rw [pageSections, find?_handSections hhanded, howned]
  by_cases htitle : wanted = title <;> simp [htitle, Entries.find?]

theorem nodup_names_pageSections (title text : String) :
    (Entries.names (pageSections title text)).Nodup :=
  nodup_names_handSections (List.nodup_singleton title)

theorem yieldText_pageSections (htitle : name.staticName? = some title)
    (hword : ∀ word keys, name = .variable word keys → Context.plainName word = word)
    (ctx : Context) (text : String) :
    r.yieldText (layoutContext ctx (pageSections title text)) (pageSections title text) name none =
      shownInPlace ctx name text := by
  have hfind (wanted : String) := find?_layoutContext (nodup_names_pageSections title text) ctx wanted
  cases name with
  | literal value =>
    cases value with
    | text s =>
      cases htitle
      have hname : r.evaluator.output (layoutContext ctx (pageSections title text))
          (.literal (.text title)) = title := rfl
      simp only [yieldText, hname, find?_pageSections, if_true]
      rfl
    | _ => cases htitle
  | «variable» word keys =>
    cases keys with
    | cons => cases htitle
    | nil =>
      cases htitle
      have hvalue : (layoutContext ctx (pageSections title text)).find? title = some (.text text) := by
        rw [hfind, find?_pageSections, if_pos rfl]
        rfl
      have hname : r.evaluator.output (layoutContext ctx (pageSections title text))
          (.variable title []) = text := by
        rw [Evaluator.output, Evaluator.eval, Context.resolve, hword title [] rfl, hvalue]
        rfl
      simp only [yieldText, hname, shownInPlace, hfind, find?_pageSections]
      by_cases hsame : text = title
      · rw [if_pos hsame, if_pos hsame]
      by_cases hcontent : text = contentName
      · rw [if_neg hsame, if_neg hsame, if_pos hcontent, if_pos hcontent]
      rw [if_neg hsame, if_neg hsame, if_neg hcontent, if_neg hcontent]
      rcases ctx.find? text with _ | (_ | _ | _ | _ | _ | _) <;> rfl
  | _ => cases htitle

variable {layout : ViewSource} {levels : Nat}

theorem renderPage_placeLayout (hlayout : r.views "l" = .ok layout)
    (hsource : layout.source = placeLayout args) (hargs : Expr.parseArguments args = [name])
    (hname : name.staticName?.isSome = true) (hkept : (Engine.new r).Kept s.cache)
    (hchain : "l" ∉ f.chain) :
    (r.renderPage .layout (levels + 1) f "l" s).1 =
      .ok (r.yieldText s.context f.sections name none) := by
  obtain ⟨herrors, loc, hchildren⟩ :=
    Builder.parseTemplate_placeLayout hargs hname r.options.markers
  rw [renderPage_of_view hlayout (hsource ▸ herrors) hchain (hkept.parse_eq hlayout),
    renderRoot_placeLayout (hsource ▸ hchildren)]

section InPlace

variable (hmarkers : r.options.markers = Markers.standard)
  (htext : Piece.Spares .standard text.toList) (hsign : '@' ∉ text.toList)
  (hargs : Expr.parseArguments args = [name]) (hname : name.staticName?.isSome = true)
  (hlayout : r.views "l" = .ok layout) (hsource : layout.source = placeLayout args)

include hmarkers htext hsign hargs hname

theorem errors_sectionPage :
    (parseTemplate r.options.markers (sectionPage args text)).errors = [] := by
  obtain ⟨title, htitle⟩ := Option.isSome_iff_exists.1 hname
  exact (Builder.parseTemplate_sectionPage hargs htitle (hmarkers ▸ htext) hsign).1

include hlayout hsource

/-- Wherever the tree of the page is rendered without sections and outside of its layout, its text is
what stands in the place that the layout is. -/
theorem renderRoot_of_section (hkept : (Engine.new r).Kept s.cache) (hsections : f.sections = [])
    (hchain : "l" ∉ f.chain) (levels : Nat) (enter : Enter) :
    ∃ t, r.renderRoot enter (r.renderPage .layout (levels + 1)) f
        (parseTemplate r.options.markers (sectionPage args text)).root s =
      (.ok (shownInPlace s.context name text), t) ∧ t.context = s.context := by
  obtain ⟨title, htitle⟩ := Option.isSome_iff_exists.1 hname
  have hword : ∀ word keys, name = .variable word keys → Context.plainName word = word := by
    rintro word keys rfl
    exact Expr.plainName_of_isIdentifier
      (Expr.isIdentifier_of_parse? (Expr.parse?_of_staticName? hargs hname))
  obtain ⟨-, loc, loc', body, hchildren, hbody⟩ :=
    Builder.parseTemplate_sectionPage hargs htitle (hmarkers ▸ htext) hsign
  rw [renderRoot_sectionPage hchildren hbody hsections]
  refine ⟨_, Prod.ext ?_ rfl, rfl⟩
  rw [← yieldText_pageSections htitle hword s.context text]
  exact renderPage_placeLayout hlayout hsource hargs hname hkept hchain

theorem renderSource_of_section (hdepth : 0 < r.options.maxDepth) (ctx : Context) :
    ((Engine.new r).renderSource (sectionPage args text) ctx).reply =
      (.ok (shownInPlace ctx name text), ctx) := by
  obtain ⟨levels, hlevels⟩ := Nat.exists_eq_add_one.2 hdepth
  obtain ⟨t, hrender, hcontext⟩ := renderRoot_of_section (f := Frame.outermost) (s := ⟨ctx, [], []⟩)
    hmarkers htext hsign hargs hname hlayout hsource (Engine.kept_new r) rfl List.not_mem_nil levels
    (r.renderInclude r.options.maxDepth)
  have hpage : r.renderSource (sectionPage args text) ⟨ctx, [], []⟩ =
      (.ok (shownInPlace ctx name text), t) := by
    rw [← hlevels] at hrender
    rw [renderSource, check_of_errors_eq_nil r (errors_sectionPage hmarkers htext hsign hargs hname)]
    exact hrender
  rw [Engine.renderSource, Engine.run]
  simp only [Engine.new, hpage, Outcome.reply, hcontext]

theorem renderView_of_section {viewName : String} {view : ViewSource}
    (hview : r.views viewName = .ok view) (hpage : view.source = sectionPage args text)
    (hdepth : 1 < r.options.maxDepth) (ctx : Context) :
    ((Engine.new r).renderView viewName ctx).reply =
      (.ok (shownInPlace ctx name text), ctx) := by
  obtain ⟨levels, hlevels⟩ := Nat.exists_eq_add_of_le' hdepth
  -- The page is not its own layout: the two begin with different directives.
  have hother : viewName ≠ "l" := by
    rintro rfl
    rw [hlayout] at hview
    cases hview
    have hsecond := congrArg (fun source => source.toList[1]?) (hsource.symm.trans hpage)
    simp [placeLayout, sectionPage] at hsecond
  have herrors := errors_sectionPage hmarkers htext hsign hargs hname
  have hentered := renderPage_of_view (f := Frame.outermost) (s := ⟨ctx, [], []⟩) hview
    (hpage ▸ herrors) List.not_mem_nil ((Engine.kept_new r).parse_eq hview) .entry (levels + 1)
  obtain ⟨t, hrender, hcontext⟩ := renderRoot_of_section (f := ⟨[viewName], [], .setAside, false⟩)
    (s := ⟨ctx, (r.parseCached viewName view.source []).2, [⟨viewName, .entry, .outermost⟩]⟩)
    hmarkers htext hsign hargs hname hlayout hsource ((Engine.kept_new r).parseCached hview) rfl
    (fun hmem => hother (List.mem_singleton.1 hmem).symm) levels (r.renderInclude (levels + 1))
  have hpage : r.renderView viewName ⟨ctx, [], []⟩ = (.ok (shownInPlace ctx name text), t) := by
    rw [← hpage] at hrender
    rw [renderView, hlevels]
    exact hentered.trans hrender
  rw [Engine.renderView, Engine.run]
  simp only [Engine.new, hpage, Outcome.reply, hcontext]

end InPlace

/-- A page with one section, which holds `text`, is rendered to what stands in the place of the
section, and leaves the context as it is, when its layout is this place, with the name written as in
the page. -/
theorem section_in_place (hmarkers : r.options.markers = Markers.standard)
    (hsign : '@' ∉ text.toList) (hraw : ¬Markers.standard.raw.opening <:+: text.toList)
    (hescaped : ¬Markers.standard.escaped.opening <:+: text.toList)
    (hargs : Expr.parseArguments args = [name]) (hname : name.staticName?.isSome = true)
    (hlayout : r.views "l" = .ok layout) (hsource : layout.source = placeLayout args)
    (ctx : Context) :
    (0 < r.options.maxDepth →
      ((Engine.new r).renderSource (sectionPage args text) ctx).reply =
        (.ok (shownInPlace ctx name text), ctx)) ∧
      ∀ viewName view, r.views viewName = .ok view → view.source = sectionPage args text →
        1 < r.options.maxDepth →
          ((Engine.new r).renderView viewName ctx).reply =
            (.ok (shownInPlace ctx name text), ctx) := by
  have htext : Piece.Spares .standard text.toList := Piece.spares_standard hraw hescaped
  constructor
  · intro hdepth
    exact renderSource_of_section hmarkers htext hsign hargs hname hlayout hsource hdepth ctx
  · intro viewName view hview hpage hdepth
    exact renderView_of_section hmarkers htext hsign hargs hname hlayout hsource hview hpage hdepth ctx

/-- A page and its layout in memory, where both are given the same name. -/
def titledRenderer (args : String) : Renderer :=
  .ofSources [("page", sectionPage args "hi"), ("l", placeLayout args)]

/-- With a name between quotes the text is shown, with a word what the context has under the text. -/
theorem section_in_place_title :
    ((Engine.new (titledRenderer "'title'")).renderView "page" .empty).reply = (.ok "hi", .empty) ∧
      ((Engine.new (titledRenderer "title")).renderView "page" ⟨[("hi", .text "ho")]⟩).reply =
        (.ok "ho", ⟨[("hi", .text "ho")]⟩) := by
  have hquoted : Expr.parseArguments "'title'" = [.text "title"] := by cbv
  have hword : Expr.parseArguments "title" = [.variable "title" []] := by cbv
  constructor
  · exact (section_in_place (r := titledRenderer "'title'") rfl (by decide) (by decide) (by decide)
      hquoted rfl rfl rfl .empty).2 "page" _ rfl rfl (by decide)
  · exact (section_in_place (r := titledRenderer "title") rfl (by decide) (by decide) (by decide)
      hword rfl rfl rfl ⟨[("hi", .text "ho")]⟩).2 "page" _ rfl rfl (by decide)

/-- A section that is named by a word is not shown in the place that is named by the word. -/
theorem not_section_in_place :
    Expr.parseArguments "title" = [.variable "title" []] ∧
      (Expr.variable "title" []).staticName? = some "title" ∧
      ((Engine.new (titledRenderer "title")).renderView "page" .empty).result = .ok "" :=
  ⟨by cbv, rfl, by cbv⟩

end Renderer

end Templating
