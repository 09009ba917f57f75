import Templating.Proofs.Render.Layouts
import Templating.Proofs.Render.Strictness
import Templating.Proofs.Template.Verbatim

/-!
# Rendering text that stays as it is

A template without errors whose nodes show one text wherever they stand, and which extends no layout,
gives that text, on its own and as a view (`RendersAs.of_shows`). Text with each `@` written twice is
such a template (`rendersAs_doubled`), and so is a text as a literal between quotes
(`rendersAs_quoted`).
-/

namespace Templating

namespace Renderer

def Shows (r : Renderer) (ns : List Node) (text : String) : Prop :=
  ∀ enter f s, r.renderNodes enter f ns s = (.ok text, s)

/-- The source has no errors, and it renders to the text and leaves the context as it is: on its own
by any engine of the renderer, and as a view, as long as any view may be entered. -/
structure RendersAs (r : Renderer) (source text : String) : Prop where
  errors : (parseTemplate r.options.markers source).errors = []
  inline : ∀ (e : Engine) (ctx : Context), e.renderer = r →
    (e.renderSource source ctx).reply = (.ok text, ctx)
  view : ∀ (name : String) (view : ViewSource) (ctx : Context), r.views name = .ok view →
    view.source = source → 0 < r.options.maxDepth →
      ((Engine.new r).renderView name ctx).reply = (.ok text, ctx)

variable {r : Renderer} {source text : String}

theorem renderRoot_of_shows {root : Root} (h : r.Shows root.children text)
    (hlayout : Node.firstLayout? root.children = none) (enter layout : Enter) (f : Frame)
    (s : RenderState) : r.renderRoot enter layout f root s = (.ok text, s) := by
  rw [renderRoot, Render.bind_apply, h]
  simp only [hlayout]
  rfl

theorem RendersAs.of_shows (herrors : (parseTemplate r.options.markers source).errors = [])
    (hlayout : Node.firstLayout? (parseTemplate r.options.markers source).root.children = none)
    (h : r.Shows (parseTemplate r.options.markers source).root.children text) :
    r.RendersAs source text where
  errors := herrors
  inline := by
    rintro e ctx rfl
    have hrender : e.renderer.renderSource source ⟨ctx, e.cache, []⟩ =
        (.ok text, ⟨ctx, e.cache, []⟩) := by
      rw [renderSource, check_of_errors_eq_nil _ herrors]
      exact renderRoot_of_shows h hlayout _ _ _ _
    rw [Engine.renderSource, Engine.run, hrender]
    rfl
  view := by
    rintro name view ctx hview rfl hlevels
    obtain ⟨levels, hlevels⟩ := Nat.exists_eq_succ_of_ne_zero (Nat.ne_of_gt hlevels)
    have hload := note_load_of_ok (q := ⟨name, .entry, Frame.outermost⟩) hview ⟨ctx, [], []⟩
    have hparsed : (r.parseCached name view.source []).1 =
        parseTemplate r.options.markers view.source := rfl
    simp only [hparsed, check_of_errors_eq_nil r herrors] at hload
    obtain ⟨t, hpage, hcontext⟩ : ∃ t : RenderState,
        r.renderView name ⟨ctx, [], []⟩ = (.ok text, t) ∧ t.context = ctx := by
      rw [renderView, hlevels, renderPage, ← bind_assoc, Render.bind_apply, hload]
      exact ⟨_, renderRoot_of_shows h hlayout _ _ _ _, rfl⟩
    rw [Engine.renderView, Engine.run]
    simp only [Engine.new, hpage, Outcome.reply, hcontext]

/-! ## Text nodes -/

theorem shows_texts {ns : List Node} (hns : ∀ n ∈ ns, n.text?.isSome = true) :
    r.Shows ns (String.ofList (ns.flatMap fun n => (n.text?.getD "").toList)) := by
  intro enter f s
  induction ns with
  | nil => rw [renderNodes]; rfl
  | cons n ns ih =>
    obtain ⟨hn, hall⟩ := List.forall_mem_cons.1 hns
    cases n with
    | text content loc =>
      rw [renderNodes, renderNode, pure_bind, Render.bind_apply, ih hall]
      simp [Node.text?]
      rfl
    | _ => cases hn

theorem firstLayout?_texts {ns : List Node} (hns : ∀ n ∈ ns, n.text?.isSome = true) :
    Node.firstLayout? ns = none := by
  induction ns with
  | nil => rfl
  | cons n ns ih =>
    obtain ⟨hn, hall⟩ := List.forall_mem_cons.1 hns
    cases n with
    | text content loc => simp [Node.firstLayout?, Node.layout?, ih hall]
    | _ => cases hn

/-- With each `@` written twice a text renders to itself, if no delimiter opens an interpolation in
it. -/
theorem rendersAs_doubled (hmarkers : r.options.markers = Markers.standard) {text : String}
    (hraw : ¬Markers.standard.raw.opening <:+: text.toList)
    (hescaped : ¬Markers.standard.escaped.opening <:+: text.toList) :
    r.RendersAs (String.ofList (doubled text.toList)) text := by
  have hspares : Piece.Spares Markers.standard text.toList := by
    refine ⟨fun escape => by cases escape <;> decide, fun escape => ?_⟩
    cases escape
    · exact hraw
    · exact hescaped
  obtain ⟨herrors, ns, hchildren, htexts, hplain⟩ := parseTemplate_doubled hspares
  have htexts' : ∀ n ∈ ns.reverse, n.text?.isSome = true := fun n hn =>
    htexts n (List.mem_reverse.1 hn)
  rw [← hmarkers] at herrors hchildren
  refine .of_shows herrors (hchildren ▸ firstLayout?_texts htexts') ?_
  have hshows := shows_texts (r := r) htexts'
  have htext : ns.reverse.flatMap (fun n => (n.text?.getD "").toList) = text.toList := hplain
  rwa [htext, String.ofList_toList, ← hchildren] at hshows

/-- A directive, signs, a quote that never closes, and a lone brace; the view has the same source. -/
theorem rendersAs_doubled_page :
    (ofSources [("page", "@@if (@@@@ö '\x7b")]).RendersAs "@@if (@@@@ö '\x7b" "@if (@@ö '\x7b" ∧
      ((Engine.new (ofSources [("page", "@@if (@@@@ö '\x7b")])).renderView "page" .empty).reply =
        (.ok "@if (@@ö '\x7b", .empty) := by
  have hsource : String.ofList (doubled "@if (@@ö '\x7b".toList) = "@@if (@@@@ö '\x7b" := by decide
  have hrenders : (ofSources [("page", "@@if (@@@@ö '\x7b")]).RendersAs
      (String.ofList (doubled "@if (@@ö '\x7b".toList)) "@if (@@ö '\x7b" :=
    rendersAs_doubled rfl (by decide) (by decide)
  rw [hsource] at hrenders
  exact ⟨hrenders, hrenders.view "page" _ _ rfl rfl (by decide)⟩

/-! ## An interpolated literal -/

theorem shows_literal (escape : Bool) (text : String) (loc : Location) :
    r.Shows [.interpolation (.text text) escape loc] (if escape then Text.escape text else text) := by
  intro enter f s
  have htext : r.interpolationText s.context (.text text) escape =
      if escape then Text.escape text else text := rfl
  have hnode : r.renderNode enter f (.interpolation (.text text) escape loc) s =
      (.ok (r.interpolationText s.context (.text text) escape), s) := by
    rw [renderNode]
    rfl
  rw [renderNodes, Render.bind_apply, hnode, htext, renderNodes]
  simp only [pure_bind, String.append_empty]
  rfl

/-- As a literal a text renders to itself, and to itself with entities in an interpolation that
escapes. -/
theorem rendersAs_quoted (hmarkers : r.options.markers = Markers.standard) (escape : Bool)
    (text : String) :
    r.RendersAs (String.ofList (quoted escape text.toList))
      (if escape then Text.escape text else text) := by
  obtain ⟨herrors, loc, hchildren⟩ := parseTemplate_quoted escape text
  rw [← hmarkers] at herrors hchildren
  refine .of_shows herrors ?_ (hchildren ▸ shows_literal escape text loc)
  rw [hchildren]
  rfl

/-- Delimiters, a directive, both kinds of quotes, and a backslash at the end. -/
theorem rendersAs_quoted_delimiters :
    (ofSources []).RendersAs "\x7b!! '@if(a) !!\x7d <b>\x5c'\x22\x5c\x5c' !!\x7d"
      "@if(a) !!\x7d &lt;b&gt;'&quot;\x5c" := by
  have hsource : String.ofList (quoted true "@if(a) !!\x7d <b>'\x22\x5c".toList) =
      "\x7b!! '@if(a) !!\x7d <b>\x5c'\x22\x5c\x5c' !!\x7d" := by
    decide
  have hrenders : (ofSources []).RendersAs
      (String.ofList (quoted true "@if(a) !!\x7d <b>'\x22\x5c".toList))
      (if true then Text.escape "@if(a) !!\x7d <b>'\x22\x5c" else "@if(a) !!\x7d <b>'\x22\x5c") :=
    rendersAs_quoted rfl true _
  have htext : Text.escape "@if(a) !!\x7d <b>'\x22\x5c" =
      "@if(a) !!\x7d &lt;b&gt;'&quot;\x5c" := by
    cbv
  rw [hsource, if_pos rfl, htext] at hrenders
  exact hrenders

end Renderer

end Templating
