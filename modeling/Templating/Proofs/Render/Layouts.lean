import Templating.Proofs.Render.Cache
import Templating.Proofs.Render.Course
import Templating.Proofs.Render.Sections

/-!
# Chains of layouts

A page that extends a layout renders its body, compiles its sections, and then the layout renders as
a page of its own, which may extend a layout in turn. `Page.Extends` is one step of such a chain, from
where the body of a page begins to where the body of its layout begins, and `Page.Chain` is a whole
one. What a page is given under a name is what the first page of the chain offers under it
(`Chain.find?_sections`); from this follow the laws of named sections (`sections_of_chain`) and of
the section `content`, for which the body of a page can stand in (`content_of_chain`).
-/

namespace Templating

/-- A page where its body begins: the frame in it, its tree, how many more views may be entered from
it, and the state. -/
structure Page where
  frame : Frame
  root : Root
  levels : Nat
  state : RenderState

structure LayoutCall where
  frame : Frame
  name : String
  state : RenderState

namespace Page

def inside (p : Page) : Frame :=
  { p.frame with mode := .setAside }

def parts (p : Page) : List Section :=
  Section.firsts [] (Section.ofNodes p.root.children)

variable (r : Renderer) (p q : Page)

def body : Except RenderError String × RenderState :=
  r.renderNodes (r.renderInclude p.levels) p.inside p.root.children p.state

def compile (part : Section) : Render String :=
  r.renderSection (r.renderInclude p.levels) p.inside part

/-- The texts of the sections, compiled one after the other from the state that the body leaves, and
the state after them. -/
def compiled : Except RenderError (List String) × RenderState :=
  p.parts.mapM (p.compile r) (p.body r).2

def texts : Entries String :=
  match (p.compiled r).1 with
  | .ok texts => (p.parts.map Section.name).zip texts
  | .error _ => []

def text? (name : String) : Option String :=
  Entries.find? name (p.texts r)

/-- What the page has under a name for its layout: the section, or its body as the content. -/
def offer? (name : String) : Option String :=
  (p.text? r name).or (if name = contentName then (p.body r).1.toOption else none)

/-- The render of the page, where `layout` renders the layout it extends. -/
def render (layout : Enter) : Except RenderError String × RenderState :=
  r.renderRoot (r.renderInclude p.levels) layout p.frame p.root p.state

/-- The sections that the layout of the page is given, the body having the text `body`. -/
def handed (body : String) : Entries String :=
  Renderer.handSections p.frame.sections (p.texts r) body

def call (body name : String) : LayoutCall where
  frame := { p.inside.detach with sections := p.handed r body }
  name := name
  state := { (p.compiled r).2 with
    context := Renderer.layoutContext (p.compiled r).2.context (p.handed r body) }

/-- The render of the page ends with a call of its layout: whatever the layout does, its result is
that of the page, and its state too, but for the context, which is put back. -/
def HandsOver (call : LayoutCall) : Prop :=
  ∃ c : Context, ∀ layout : Enter,
    p.render r layout =
      ((layout call.frame call.name call.state).1,
        { (layout call.frame call.name call.state).2 with context := c })

end Page

/-- The page that a view is rendered as, if the render comes to its body. -/
def Renderer.page? (r : Renderer) (route : Route) (levels : Nat) (f : Frame) (name : String)
    (s : RenderState) : Option Page :=
  match (Render.note ⟨name, route, f⟩ >>= fun _ => r.load name) s, Renderer.enterFrame f name,
    levels with
  | (.ok parsed, t), .ok inner, levels + 1 => some ⟨inner, parsed.root, levels, t⟩
  | _, _, _ => none

namespace Page

/-- The render of `p` comes to `q`, the page of the layout that `p` extends. -/
def Extends (r : Renderer) (p q : Page) : Prop :=
  ∃ call, p.HandsOver r call ∧
    r.page? .layout p.levels call.frame call.name call.state = some q

/-- A chain of layouts up to the page `p`. The pages before it are those that each extend the next,
the first one being given no sections. -/
inductive Chain (r : Renderer) : List Page → Page → Prop where
  | first {p : Page} (h : p.frame.sections = []) : Chain r [] p
  | layout {before : List Page} {p q : Page} (h : Chain r before p) (hq : p.Extends r q) :
    Chain r (before ++ [p]) q

variable {r : Renderer} {p q : Page} {route : Route} {levels : Nat} {f : Frame} {name : String}
  {s : RenderState}

theorem eq_of_page? (h : r.page? route levels f name s = some p) :
    ∃ parsed t, (Render.note ⟨name, route, f⟩ >>= fun _ => r.load name) s = (.ok parsed, t) ∧
      levels = p.levels + 1 ∧ p = ⟨{ f with chain := name :: f.chain }, parsed.root, p.levels, t⟩ := by
  unfold Renderer.page? at h
  split at h
  · rename_i parsed t inner levels hload henter
    cases h
    exact ⟨parsed, t, hload, rfl, by rw [Renderer.enterFrame_eq_ok henter]⟩
  · cases h

theorem renderPage_eq (h : r.page? route levels f name s = some p) :
    r.renderPage route levels f name s = p.render r (r.renderPage .layout p.levels) := by
  unfold Renderer.page? at h
  split at h
  · rename_i parsed t inner levels hload henter
    cases h
    rw [Renderer.renderPage, ← bind_assoc, Render.bind_apply, hload]
    simp only [henter]
    rfl
  · cases h

theorem context_of_page? (h : r.page? route levels f name s = some p) :
    p.state.context = s.context := by
  obtain ⟨parsed, t, hload, -, hp⟩ := eq_of_page? h
  have ht : t.context = ((Render.note ⟨name, route, f⟩ >>= fun _ => r.load name) s).2.context := by
    rw [hload]
  rw [hp, ht, note_load_context]

variable (r p)

/-- A page renders its body, then it compiles the first section of each name, one after the other in
document order, and then its layout is called. -/
theorem render_eq_do (layout : Enter) :
    p.render r layout =
      (do
        let body ← r.renderNodes (r.renderInclude p.levels) p.inside p.root.children
        match Node.firstLayout? p.root.children with
        | none => return body
        | some name =>
          let texts ← p.parts.mapM (p.compile r)
          let sections := Renderer.handSections p.frame.sections
            ((p.parts.map Section.name).zip texts) body
          let ctx ← Render.context
          Render.detached (Renderer.layoutContext ctx sections)
            (layout { p.inside.detach with sections := sections } name) : Render String) p.state := by
  rw [render, Renderer.renderRoot]
  simp only [Renderer.renderSections_eq, bind_assoc, pure_bind]
  rfl

theorem render_eq (layout : Enter) :
    p.render r layout =
      match (p.body r).1 with
      | .error e => (.error e, (p.body r).2)
      | .ok body =>
        match Node.firstLayout? p.root.children with
        | none => (.ok body, (p.body r).2)
        | some name =>
          match (p.compiled r).1 with
          | .error e => (.error e, (p.compiled r).2)
          | .ok _ =>
            let call := p.call r body name
            let after := layout call.frame call.name call.state
            (after.1, { after.2 with context := (p.compiled r).2.context }) := by
  have hbody : r.renderNodes (r.renderInclude p.levels) p.inside p.root.children p.state =
      ((p.body r).1, (p.body r).2) := rfl
  have hcompiled : p.parts.mapM (p.compile r) (p.body r).2 =
      ((p.compiled r).1, (p.compiled r).2) := rfl
  rw [render_eq_do, Render.bind_apply, hbody]
  cases (p.body r).1 with
  | error e => rfl
  | ok body =>
    cases Node.firstLayout? p.root.children with
    | none => rfl
    | some name =>
      simp only
      rw [Render.bind_apply, hcompiled]
      cases htexts : (p.compiled r).1 with
      | error e => rfl
      | ok texts =>
        have hown : p.texts r = (p.parts.map Section.name).zip texts := by rw [Page.texts, htexts]
        simp only [call, handed, hown]
        rfl

variable {r p}

/-- Two calls that give the same result whatever the layout does are the same call. -/
theorem eq_of_forall_layout {c d : LayoutCall} (h : ∀ layout : Enter,
    (layout c.frame c.name c.state).1 = (layout d.frame d.name d.state).1) : c = d := by
  classical
  by_contra hne
  -- A layout that succeeds in the first call only tells the two apart.
  have hlayout := h fun f name s =>
    (if (⟨f, name, s⟩ : LayoutCall) = c then .ok "" else .error (.depthExceeded 0), s)
  rw [if_pos rfl, if_neg (Ne.symm hne)] at hlayout
  cases hlayout

/-- What a page has done when it calls its layout, and what the call is. -/
theorem HandsOver.exists_eq {c : LayoutCall} (h : p.HandsOver r c) :
    ∃ body texts, (p.body r).1 = .ok body ∧ (p.compiled r).1 = .ok texts ∧
      Node.firstLayout? p.root.children = some c.name ∧ c = p.call r body c.name := by
  obtain ⟨kept, h⟩ := h
  simp only [render_eq] at h
  -- A page that stops before its layout has one result, but a layout may succeed or fail.
  cases hbody : (p.body r).1 with
  | error e =>
    have hok := congrArg Prod.fst (h fun _ _ s => (.ok "", s))
    rw [hbody] at hok
    cases hok
  | ok body =>
    simp only [hbody] at h
    cases hname : Node.firstLayout? p.root.children with
    | none =>
      have herror := congrArg Prod.fst (h fun _ _ s => (.error (.depthExceeded 0), s))
      rw [hname] at herror
      cases herror
    | some name =>
      simp only [hname] at h
      cases htexts : (p.compiled r).1 with
      | error e =>
        have hok := congrArg Prod.fst (h fun _ _ s => (.ok "", s))
        rw [htexts] at hok
        cases hok
      | ok texts =>
        simp only [htexts] at h
        obtain rfl : p.call r body name = c :=
          eq_of_forall_layout fun layout => (Prod.mk.inj (h layout)).1
        exact ⟨body, texts, rfl, rfl, rfl, rfl⟩

/-- A page that has rendered its body and compiled its sections calls its layout. -/
theorem handsOver_call {body name : String} {texts : List String} (hbody : (p.body r).1 = .ok body)
    (hname : Node.firstLayout? p.root.children = some name)
    (htexts : (p.compiled r).1 = .ok texts) : p.HandsOver r (p.call r body name) := by
  refine ⟨(p.compiled r).2.context, fun layout => ?_⟩
  rw [render_eq, hbody]
  simp only [hname, htexts]

/-- The page of the layout, computed. -/
def layout? (r : Renderer) (p : Page) : Option Page :=
  match (p.body r).1, Node.firstLayout? p.root.children, (p.compiled r).1 with
  | .ok body, some name, .ok _ =>
    let call := p.call r body name
    r.page? .layout p.levels call.frame call.name call.state
  | _, _, _ => none

theorem extends_iff : p.Extends r q ↔ p.layout? r = some q := by
  constructor
  · rintro ⟨c, hcall, hq⟩
    obtain ⟨body, texts, hbody, htexts, hname, hc⟩ := hcall.exists_eq
    rw [hc] at hq
    simpa only [layout?, hbody, htexts, hname] using hq
  · intro h
    unfold layout? at h
    split at h
    · rename_i body name texts hbody hname htexts
      exact ⟨_, handsOver_call hbody hname htexts, h⟩
    · cases h

theorem Extends.render_eq (h : p.Extends r q) :
    ∃ c : Context, p.render r (r.renderPage .layout p.levels) =
      ((q.render r (r.renderPage .layout q.levels)).1,
        { (q.render r (r.renderPage .layout q.levels)).2 with context := c }) := by
  obtain ⟨call, ⟨c, hcall⟩, hq⟩ := h
  exact ⟨c, by rw [hcall, renderPage_eq hq]⟩

/-- What a page has done where the body of its layout begins, and what the layout is given. -/
theorem Extends.exists_body (h : p.Extends r q) :
    ∃ body texts, (p.body r).1 = .ok body ∧ (p.compiled r).1 = .ok texts ∧
      q.frame.sections = p.handed r body ∧
      q.state.context = Renderer.layoutContext (p.compiled r).2.context q.frame.sections := by
  obtain ⟨c, hcall, hq⟩ := h
  obtain ⟨body, texts, hbody, htexts, -, hc⟩ := hcall.exists_eq
  obtain ⟨parsed, t, -, -, hframe⟩ := eq_of_page? hq
  have hsections : q.frame.sections = p.handed r body := by
    rw [hframe, hc]
    rfl
  refine ⟨body, texts, hbody, htexts, hsections, ?_⟩
  rw [context_of_page? hq, hsections, hc]
  rfl

/-- The layout that a page comes to is the first that it names. -/
theorem Extends.exists_name (h : p.Extends r q) :
    ∃ name, Node.firstLayout? p.root.children = some name ∧
      q.frame.chain = name :: p.frame.chain := by
  obtain ⟨c, hcall, hq⟩ := h
  obtain ⟨body, texts, -, -, hname, hc⟩ := hcall.exists_eq
  obtain ⟨parsed, t, -, -, hframe⟩ := eq_of_page? hq
  refine ⟨c.name, hname, ?_⟩
  rw [hframe, hc]
  rfl

/-- The texts of the sections, and what the page has of each: nothing under a name that no section of
it has, else what the first section of the name is compiled to. -/
theorem text?_of_compiled {texts : List String} (h : (p.compiled r).1 = .ok texts)
    (wanted : String) :
    match (Section.ofNodes p.root.children).find? (·.name = wanted) with
    | none => p.text? r wanted = none
    | some part => ∃ text, p.text? r wanted = some text ∧
        Section.ComesTo (p.compile r) p.parts (p.body r).2 part text := by
  have hmapM : p.parts.mapM (p.compile r) (p.body r).2 = (.ok texts, (p.compiled r).2) :=
    Prod.ext h rfl
  have hown : p.texts r = (p.parts.map Section.name).zip texts := by rw [Page.texts, h]
  have hparts := (Section.areFirsts_firsts (Section.ofNodes p.root.children)).find?_eq wanted
  have hfind := Section.find?_zip_mapM hmapM wanted
  rw [text?, hown, ← hparts]
  exact hfind

theorem nodup_names_texts : (Entries.names (p.texts r)).Nodup := by
  have hparts := Section.nodup_names_firsts [] (Section.ofNodes p.root.children)
  unfold texts
  cases (p.compiled r).1 with
  | error e => exact List.nodup_nil
  | ok texts => exact hparts.sublist (Entries.names_zip_sublist _ texts)

/-- What the layout is given under a name: what the page was given itself, or what it offers. -/
theorem Extends.find?_sections (h : p.Extends r q) (hp : (Entries.names p.frame.sections).Nodup)
    (name : String) :
    Entries.find? name q.frame.sections =
      (Entries.find? name p.frame.sections).or (p.offer? r name) := by
  obtain ⟨body, texts, hbody, -, hsections, -⟩ := h.exists_body
  rw [hsections, handed, Renderer.find?_handSections hp, Option.or_assoc, offer?, text?, hbody]
  rfl

theorem Extends.nodup_sections (h : p.Extends r q) : (Entries.names q.frame.sections).Nodup := by
  obtain ⟨body, texts, -, -, hsections, -⟩ := h.exists_body
  rw [hsections]
  exact Renderer.nodup_names_handSections nodup_names_texts

/-- The context that the body of a layout begins in: what the page leaves, overwritten by every
section that the layout is given. -/
theorem Extends.find?_context (h : p.Extends r q) (name : String) :
    q.state.context.find? name =
      ((Entries.find? name q.frame.sections).map Value.text).or
        ((p.compiled r).2.context.find? name) := by
  obtain ⟨body, texts, -, -, -, hcontext⟩ := h.exists_body
  rw [hcontext, Renderer.find?_layoutContext h.nodup_sections]

variable {before : List Page}

theorem Chain.nodup_sections (h : Chain r before p) : (Entries.names p.frame.sections).Nodup := by
  cases h with
  | first h =>
    rw [h]
    exact List.nodup_nil
  | layout _ hq => exact hq.nodup_sections

/-- What a page of a chain is given under a name is what the first page before it offers that offers
anything. -/
theorem Chain.find?_sections (h : Chain r before p) (name : String) :
    Entries.find? name p.frame.sections = before.findSome? (·.offer? r name) := by
  induction h with
  | first h =>
    rw [h]
    rfl
  | layout h hq ih =>
    -- What was handed on comes first, so the page that was added last is asked last.
    rw [hq.find?_sections h.nodup_sections, ih, List.findSome?_append, List.findSome?_singleton]

theorem Chain.extends_of_mem {v : Page} (h : Chain r before p) (hv : v ∈ before) :
    ∃ w, v.Extends r w := by
  induction h with
  | first h => cases hv
  | layout h hq ih =>
    rcases List.mem_append.1 hv with hv | hv
    · exact ih hv
    · exact ⟨_, List.mem_singleton.1 hv ▸ hq⟩

/-- Between the two states, views were only asked for where the sections at hand were `sections`. -/
def AskedWith (sections : Entries String) (s t : RenderState) : Prop :=
  ∃ asked, t.requests = asked ++ s.requests ∧ ∀ q ∈ asked, q.frame.sections = sections

/-- The sections at hand are the same all through a render, also in the views that it includes. -/
def sectionCourse : Course where
  Leads := fun f => AskedWith f.sections
  refl := fun _ _ => ⟨[], rfl, fun _ h => nomatch h⟩
  trans := by
    rintro f s t u ⟨asked, ht, hasked⟩ ⟨more, hu, hmore⟩
    refine ⟨more ++ asked, by rw [hu, ht, List.append_assoc], fun q hq => ?_⟩
    exact (List.mem_append.1 hq).elim (hmore q) (hasked q)
  detached := fun h => h

theorem follows_renderInclude (levels : Nat) (f : Frame) (name : String) :
    sectionCourse.Follows f (r.renderInclude levels f name) := by
  rw [Renderer.renderInclude]
  split
  · exact .pure _
  · have hload : sectionCourse.Follows f
        (Render.note ⟨name, .inclusion, f⟩ >>= fun _ => r.loadIncluded name) := by
      intro s
      refine ⟨[⟨name, .inclusion, f⟩], ?_, fun q hq => by rw [List.mem_singleton.1 hq]⟩
      exact note_loadIncluded_requests r ⟨name, .inclusion, f⟩ s
    rw [← bind_assoc]
    refine hload.bind fun found => ?_
    cases found with
    | none => exact .pure _
    | some parsed =>
      refine .lift_bind fun inner hinner => ?_
      obtain rfl := Renderer.enterFrame_eq_ok hinner
      cases levels with
      | zero => exact .throw _
      | succ levels =>
        let inside : Frame := { f with chain := name :: f.chain, mode := .inPlace }
        have hfree : ∀ g, sectionCourse.Free (r.renderInclude levels) g := fun g =>
          ⟨fun _ s _ => sectionCourse.refl g s, follows_renderInclude levels g⟩
        exact Course.follows_renderNodes inside (hfree _) _ ((hfree _).allows _)

theorem free_sectionCourse : sectionCourse.Free (r.renderInclude levels) f where
  bind := fun _ s _ => sectionCourse.refl f s
  enter := fun name => follows_renderInclude levels f name

variable (r p)

/-- While the body and the sections of a page render, the sections at hand are those that the page
was given. -/
theorem askedWith_sections :
    AskedWith p.frame.sections p.state (p.body r).2 ∧
      AskedWith p.frame.sections (p.body r).2 (p.compiled r).2 := by
  constructor
  · exact Course.follows_renderNodes p.inside free_sectionCourse _ (free_sectionCourse.allows _)
      p.state
  · have hpart : ∀ part, sectionCourse.Follows p.inside (p.compile r part) := fun part =>
      Course.follows_renderSection free_sectionCourse part fun _ body _ =>
        free_sectionCourse.allows body
    exact Course.Follows.mapM hpart p.parts (p.body r).2

end Page

/-- What stands at the place of a section that no page has handed on: the variable of its name if it
is a text, or the default. -/
def Renderer.standIn (r : Renderer) (ctx : Context) (name : String) (default : Option Expr) :
    String :=
  match ctx.find? name with
  | some (.text value) => value
  | _ => default.elim "" (r.evaluator.output ctx)

theorem Renderer.renderNode_yieldSection (r : Renderer) (enter : Enter) (f : Frame) (name : Expr)
    (default : Option Expr) (loc : Location) (s : RenderState) :
    r.renderNode enter f (.yieldSection name default loc) s =
      (.ok ((Entries.find? (r.evaluator.output s.context name) f.sections).getD
        (r.standIn s.context (r.evaluator.output s.context name) default)), s) := by
  have htext : r.yieldText s.context f.sections name default =
      (Entries.find? (r.evaluator.output s.context name) f.sections).getD
        (r.standIn s.context (r.evaluator.output s.context name) default) := by
    simp only [yieldText]
    cases Entries.find? (r.evaluator.output s.context name) f.sections <;> rfl
  rw [renderNode, ← htext]
  rfl

theorem Page.offer?_of_ne {r : Renderer} (p : Page) {name : String} (h : name ≠ contentName) :
    p.offer? r name = p.text? r name := by
  rw [offer?, if_neg h, Option.or_none]

/-- Named sections in a chain of layouts up to the page `p`, which may be of any length, so `p` stands
for each of its pages.

A section that is yielded while `p` renders has the text of the first page before `p` that has a
section of the name, and where no page has one the variable or the default stands in. The sections
at hand are the same in the body, in the sections and in the views that these include. Of a page
before `p`, the text of a name is that of its first section of the name in document order, compiled
after those before it. Every page renders its body, then it compiles the first section of each name,
each once and in document order from the state of before, then the first layout that it names is
called; and the context that the layout begins with is what the page leaves, overwritten by every
section as a text. -/
theorem sections_of_chain {r : Renderer} {before : List Page} {p : Page}
    (h : Page.Chain r before p) :
    (∀ enter f name default loc s, f.sections = p.frame.sections →
      r.evaluator.output s.context name ≠ contentName →
      r.renderNode enter f (.yieldSection name default loc) s =
        (.ok ((before.findSome? (·.text? r (r.evaluator.output s.context name))).getD
          (r.standIn s.context (r.evaluator.output s.context name) default)), s)) ∧
    Page.AskedWith p.frame.sections p.state (p.body r).2 ∧
    Page.AskedWith p.frame.sections (p.body r).2 (p.compiled r).2 ∧
    (∀ v ∈ before, ∀ wanted,
      match (Section.ofNodes v.root.children).find? (·.name = wanted) with
      | none => v.text? r wanted = none
      | some part => ∃ text, v.text? r wanted = some text ∧
          Section.ComesTo (v.compile r) v.parts (v.body r).2 part text) ∧
    (∀ v ∈ before ++ [p], Section.AreFirsts (Section.ofNodes v.root.children) v.parts) ∧
    (∀ layout, p.render r layout =
      (do
        let body ← r.renderNodes (r.renderInclude p.levels) p.inside p.root.children
        match Node.firstLayout? p.root.children with
        | none => return body
        | some name =>
          let texts ← p.parts.mapM (p.compile r)
          let sections := Renderer.handSections p.frame.sections
            ((p.parts.map Section.name).zip texts) body
          let ctx ← Render.context
          Render.detached (Renderer.layoutContext ctx sections)
            (layout { p.inside.detach with sections := sections } name) : Render String) p.state) ∧
    (∀ q, p.Extends r q →
      (∃ name, Node.firstLayout? p.root.children = some name ∧
        q.frame.chain = name :: p.frame.chain) ∧
      ∀ name, q.state.context.find? name =
        ((Entries.find? name q.frame.sections).map Value.text).or
          ((p.compiled r).2.context.find? name)) := by
  obtain ⟨hbody, hsections⟩ := p.askedWith_sections r
  refine ⟨?_, hbody, hsections, ?_, fun v _ => Section.areFirsts_firsts _, p.render_eq_do r,
    fun q hq => ⟨hq.exists_name, hq.find?_context⟩⟩
  · intro enter f name default loc s hf hname
    rw [Renderer.renderNode_yieldSection, hf, h.find?_sections]
    simp only [Page.offer?_of_ne _ hname]
  · intro v hv
    obtain ⟨w, hw⟩ := h.extends_of_mem hv
    obtain ⟨body, texts, -, htexts, -⟩ := hw.exists_body
    exact Page.text?_of_compiled htexts

/-- Three views, the second of which wraps the content of the first. -/
def wrapRenderer : Renderer :=
  .ofSources
    [("page", "@extends('frame')@if(true)@section('title')One@endsection@endif" ++
        "@section('title', 'Two')x"),
      ("frame", "@extends('base')@section('title', 'Frame')[@yield('content')]"),
      ("base", "<@yield('content')>@yield('title')")]

def wrapPage : Option Page :=
  wrapRenderer.page? .entry 64 Frame.outermost "page" ⟨Context.empty, [], []⟩

def wrapFrame : Option Page :=
  wrapPage.bind (·.layout? wrapRenderer)

def wrapBase : Option Page :=
  wrapFrame.bind (·.layout? wrapRenderer)

theorem exists_wrap_chain : ∃ page frame base, wrapPage = some page ∧ wrapFrame = some frame ∧
    wrapBase = some base ∧ Page.Chain wrapRenderer [page] frame ∧
    frame.Extends wrapRenderer base := by
  have hsome : wrapBase.isSome = true := by cbv
  obtain ⟨base, hbase⟩ := Option.isSome_iff_exists.1 hsome
  obtain ⟨frame, hframe, hextends⟩ := Option.bind_eq_some_iff.1 hbase
  obtain ⟨page, hpage, hextends'⟩ := Option.bind_eq_some_iff.1 hframe
  have hsections : page.frame.sections = [] := by
    obtain ⟨parsed, t, -, -, hp⟩ := Page.eq_of_page? hpage
    rw [hp]
    rfl
  exact ⟨page, frame, base, hpage, hframe, hbase,
    (Page.Chain.first hsections).layout (Page.extends_iff.2 hextends'),
    Page.extends_iff.2 hextends⟩

theorem sections_of_chain_wrap : ∃ page frame base, wrapBase = some base ∧
    Page.Chain wrapRenderer [page, frame] base ∧
    ∀ enter loc s, wrapRenderer.renderNode enter base.inside
      (.yieldSection (.text "title") none loc) s = (.ok "One", s) := by
  obtain ⟨page, frame, base, hpage, hframe, hbase, hchain, hextends⟩ := exists_wrap_chain
  refine ⟨page, frame, base, hbase, hchain.layout hextends, fun enter loc s => ?_⟩
  have htitle : page.text? wrapRenderer "title" = some "One" := by
    have h : wrapPage.bind (·.text? wrapRenderer "title") = some "One" := by cbv
    simpa only [hpage, Option.bind_some] using h
  have hname : wrapRenderer.evaluator.output s.context (.text "title") = "title" := rfl
  have hyield := (sections_of_chain (hchain.layout hextends)).1 enter base.inside (.text "title")
    none loc s rfl (by rw [hname]; decide)
  rw [hyield, hname, List.cons_append, List.findSome?_cons, htitle]
  rfl

/-- The content in a chain of layouts: every layout is given that of the first page of the chain,
which is its section of that name or, if it has none, its body. -/
theorem content_of_chain {r : Renderer} {before : List Page} {p q : Page}
    (h : Page.Chain r before p) (hq : p.Extends r q) :
    ∃ first body, (before ++ [p]).head? = some first ∧ (first.body r).1 = .ok body ∧
      Entries.find? contentName q.frame.sections =
        some ((first.text? r contentName).getD body) ∧
      q.state.context.find? contentName =
        some (.text ((first.text? r contentName).getD body)) := by
  have hchain := h.layout hq
  obtain ⟨first, rest, hall⟩ := List.exists_cons_of_ne_nil (l := before ++ [p]) (by simp)
  obtain ⟨next, hnext⟩ := hchain.extends_of_mem (v := first) (by simp [hall])
  obtain ⟨body, texts, hbody, -, -⟩ := hnext.exists_body
  have hoffer : first.offer? r contentName = some ((first.text? r contentName).getD body) := by
    rw [Page.offer?, if_pos rfl, hbody]
    cases first.text? r contentName <;> rfl
  have hcontent : Entries.find? contentName q.frame.sections =
      some ((first.text? r contentName).getD body) := by
    rw [hchain.find?_sections, hall, List.findSome?_cons, hoffer]
  refine ⟨first, body, by rw [hall]; rfl, hbody, hcontent, ?_⟩
  rw [hq.find?_context, hcontent]
  rfl

theorem content_of_chain_wrap : ∃ page frame base, wrapBase = some base ∧
    Page.Chain wrapRenderer [page] frame ∧ frame.Extends wrapRenderer base ∧
    Entries.find? contentName base.frame.sections = some "x" := by
  obtain ⟨page, frame, base, hpage, hframe, hbase, hchain, hextends⟩ := exists_wrap_chain
  refine ⟨page, frame, base, hbase, hchain, hextends, ?_⟩
  obtain ⟨first, body, hfirst, hbody, hcontent, -⟩ := content_of_chain hchain hextends
  obtain rfl : page = first := Option.some.inj hfirst
  have htext : page.text? wrapRenderer contentName = none := by
    have h : wrapPage.map (·.text? wrapRenderer contentName) = some none := by cbv
    simpa only [hpage, Option.map_some, Option.some.injEq] using h
  have hx : (page.body wrapRenderer).1 = .ok "x" := by
    have h : wrapPage.map (fun page => (page.body wrapRenderer).1) = some (.ok "x") := by cbv
    simpa only [hpage, Option.map_some, Option.some.injEq] using h
  obtain rfl : "x" = body := Except.ok.inj (hx.symm.trans hbody)
  rw [hcontent, htext]
  rfl

/-- The body of a page is not always the content that its layout is given when no page so far has a
section of that name: what the second page writes around the content is lost to the third. -/
theorem not_content_of_body : ∃ page frame base, wrapPage = some page ∧ wrapFrame = some frame ∧
    wrapBase = some base ∧ Page.Chain wrapRenderer [page] frame ∧
    frame.Extends wrapRenderer base ∧
    (∀ v ∈ [page, frame], contentName ∉ (Section.ofNodes v.root.children).map Section.name) ∧
    (frame.body wrapRenderer).1 = .ok "[x]" ∧
    Entries.find? contentName base.frame.sections ≠ some "[x]" := by
  obtain ⟨page, frame, base, hpage, hframe, hbase, hchain, hextends⟩ := exists_wrap_chain
  refine ⟨page, frame, base, hpage, hframe, hbase, hchain, hextends, ?_, ?_, ?_⟩
  · have hpageNames : wrapPage.map (fun v => (Section.ofNodes v.root.children).map Section.name) =
        some ["title", "title"] := by
      cbv
    have hframeNames : wrapFrame.map (fun v => (Section.ofNodes v.root.children).map Section.name) =
        some ["title"] := by
      cbv
    rw [hpage, Option.map_some, Option.some.injEq] at hpageNames
    rw [hframe, Option.map_some, Option.some.injEq] at hframeNames
    rw [List.forall_mem_cons, List.forall_mem_singleton, hpageNames, hframeNames]
    decide
  · have h : wrapFrame.map (fun frame => (frame.body wrapRenderer).1) = some (.ok "[x]") := by cbv
    simpa only [hframe, Option.map_some, Option.some.injEq] using h
  · have h : wrapBase.map (fun base => Entries.find? contentName base.frame.sections) =
        some (some "x") := by
      cbv
    rw [hbase, Option.map_some, Option.some.injEq] at h
    rw [h]
    decide

end Templating
