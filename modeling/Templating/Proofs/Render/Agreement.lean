import Templating.Render.Engine

/-!
# Renders that keep step

Two renders keep step when related states lead them to the same result and to related states again.
A `Link` says which states are related: their contexts resemble each other, and what they have
recorded, the parsed views and the requests, is related in a way that the link chooses. A link also
names the records that are off: from there on nothing is claimed of the two renders. The second
render may stand inside further views, and more views may be left for it to enter (`Levels`).

`Tracks` is closed under the ways in which renders are put together, so it holds of whole trees
(`tracks_renderNodes`) and pages (`tracks_renderPage`) as soon as it holds of loading a view.
-/

namespace Templating

/-- Parsed views and requests: what a state holds besides its context. -/
abbrev Record := Cache × List Request

def RenderState.record (s : RenderState) : Record :=
  (s.cache, s.requests)

namespace Render

def failure? {α : Type} : Except RenderError α → Option RenderError
  | .ok _ => none
  | .error e => some e

theorem bind_apply {α β : Type} (act : Render α) (next : α → Render β) (s : RenderState) :
    (act >>= next) s = match act s with
      | (.ok a, s') => next a s'
      | (.error e, s') => (.error e, s') := by
  change (ExceptT.bindCont next (act s).1 : StateM RenderState (Except RenderError β)) (act s).2 = _
  rcases act s with ⟨_ | _, s'⟩ <;> rfl

end Render

def Frame.within (f : Frame) (outer : List String) : Frame :=
  { f with chain := f.chain ++ outer }

@[simp] theorem Frame.within_nil (f : Frame) : f.within [] = f := by
  rw [within, List.append_nil]

/-- A relation of contexts that give every name the same value, and go on to do so when both bind a
name to the same value. -/
structure Resemblance where
  rel : Context → Context → Prop
  refl : ∀ c, rel c c
  find?_eq : ∀ {c c'}, rel c c' → ∀ name, c.find? name = c'.find? name
  bind_bind : ∀ {c c'}, rel c c' → ∀ name value, rel (c.bind name value) (c'.bind name value)

instance : CoeFun Resemblance fun _ => Context → Context → Prop :=
  ⟨Resemblance.rel⟩

def Resemblance.equal : Resemblance where
  rel := Eq
  refl := fun _ => rfl
  find?_eq := by
    rintro c _ rfl name
    rfl
  bind_bind := by
    rintro c _ rfl name value
    rfl

theorem Resemblance.layoutContext (R : Resemblance) {c c' : Context} (h : R c c')
    (sections : Entries String) :
    R (Renderer.layoutContext c sections) (Renderer.layoutContext c' sections) := by
  unfold Renderer.layoutContext
  induction sections generalizing c c' with
  | nil => exact h
  | cons entry sections ih => exact ih (R.bind_bind h entry.1 (.text entry.2))

/-- How the states of a render by `r` and of one by `r'` are related; their contexts are equal unless
said otherwise. Both renderers have the same host, so they compute the same values. The second render
has the views `outer` in progress besides. -/
structure Link (r r' : Renderer) where
  contexts : Resemblance := .equal
  records : Record → Record → Prop
  off : Option RenderError → Record → Prop
  outer : List String := []
  evaluator_eq : r'.evaluator = r.evaluator := by rfl
  formField_eq : r'.formField = r.formField := by rfl
  assets_eq : r'.assets = r.assets := by rfl
  off_error : ∀ {record}, off none record → ∀ e, off (some e) record

namespace Link

variable {r r' : Renderer} {α β : Type}

structure Holds (L : Link r r') (s s' : RenderState) : Prop where
  contexts : L.contexts s.context s'.context
  records : L.records s.record s'.record

/-- Related states lead to the same result and to related states, unless the first render goes off;
once it is off it stays so. -/
structure Tracks (L : Link r r') (act act' : Render α) : Prop where
  off : ∀ s, L.off none s.record → L.off (Render.failure? (act s).1) (act s).2.record
  agree : ∀ s s', L.Holds s s' →
    L.off (Render.failure? (act s).1) (act s).2.record ∨
      (act s).1 = (act' s').1 ∧ L.Holds (act s).2 (act' s').2

namespace Tracks

variable {L : Link r r'}

theorem pure (a : α) : L.Tracks (Pure.pure a) (Pure.pure a) where
  off := fun _ h => h
  agree := fun _ _ h => .inr ⟨rfl, h⟩

theorem lift (x : Except RenderError α) :
    L.Tracks (liftM x : Render α) (liftM x : Render α) where
  off := by
    intro s h
    cases x with
    | ok a => exact h
    | error e => exact L.off_error h e
  agree := fun _ _ h => .inr ⟨rfl, h⟩

theorem throw (e : RenderError) :
    L.Tracks (throw e : Render α) (throw e : Render α) :=
  lift (.error e)

/-- A render that goes off wherever it begins is tracked by any other. -/
theorem of_off {act act' : Render α}
    (h : ∀ s, L.off (Render.failure? (act s).1) (act s).2.record) : L.Tracks act act' where
  off := fun s _ => h s
  agree := fun s _ _ => .inl (h s)

theorem bind {act act' : Render α} {next next' : α → Render β} (h : L.Tracks act act')
    (hn : ∀ a, L.Tracks (next a) (next' a)) : L.Tracks (act >>= next) (act' >>= next') where
  off := by
    intro s hs
    have hoff := h.off s hs
    rw [Render.bind_apply]
    rcases hact : act s with ⟨e | a, t⟩
    · simpa [hact, Render.failure?] using hoff
    · rw [hact] at hoff
      exact (hn a).off t hoff
  agree := by
    intro s s' hs
    have hagree := h.agree s s' hs
    rw [Render.bind_apply, Render.bind_apply]
    rcases hact : act s with ⟨e | a, t⟩
    · rw [hact] at hagree
      rcases hagree with hoff | ⟨hr, ht⟩
      · exact .inl hoff
      · rcases hact' : act' s' with ⟨_ | _, t'⟩
        · rw [hact'] at hr ht
          exact .inr ⟨by cases hr; rfl, ht⟩
        · rw [hact'] at hr
          cases hr
    · rw [hact] at hagree
      rcases hagree with hoff | ⟨hr, ht⟩
      · exact .inl ((hn a).off t hoff)
      · rcases hact' : act' s' with ⟨_ | a', t'⟩
        · rw [hact'] at hr
          cases hr
        · rw [hact'] at hr ht
          cases hr
          exact (hn a).agree t t' ht

/-- Reading the context is tracked when what is done with related contexts is. -/
theorem context_bind {next next' : Context → Render α}
    (h : ∀ c c', L.contexts c c' → L.Tracks (next c) (next' c')) :
    L.Tracks (Render.context >>= next) (Render.context >>= next') where
  off := by
    intro s hs
    exact (h _ _ (L.contexts.refl s.context)).off s hs
  agree := by
    intro s s' hs
    exact (h _ _ hs.contexts).agree s s' hs

theorem bindName (name : String) (value : Value) :
    L.Tracks (Render.bindName name value) (Render.bindName name value) where
  off := fun _ h => h
  agree := fun _ _ h => .inr ⟨rfl, L.contexts.bind_bind h.contexts name value, h.records⟩

/-- A detached render is tracked in related contexts: only its record comes out. -/
theorem detached {c c' : Context} {act act' : Render α} (hc : L.contexts c c')
    (h : L.Tracks act act') : L.Tracks (Render.detached c act) (Render.detached c' act') where
  off := fun s hs => h.off { s with context := c } hs
  agree := by
    intro s s' hs
    rcases h.agree { s with context := c } { s' with context := c' } ⟨hc, hs.records⟩ with
      hoff | ⟨hr, ht⟩
    · exact .inl hoff
    · exact .inr ⟨hr, hs.contexts, ht.records⟩

theorem foldlM {γ : Type} {f f' : β → γ → Render β} (h : ∀ b x, L.Tracks (f b x) (f' b x))
    (xs : List γ) (b : β) : L.Tracks (xs.foldlM f b) (xs.foldlM f' b) := by
  induction xs generalizing b with
  | nil => exact pure b
  | cons x xs ih =>
    rw [List.foldlM_cons, List.foldlM_cons]
    exact (h b x).bind ih

end Tracks

mutual

theorem eval_eq (L : Link r r') {c c' : Context} (hc : L.contexts c c') :
    ∀ e : Expr, r.evaluator.eval c e = r'.evaluator.eval c' e
  | .literal value => by rw [Evaluator.eval, Evaluator.eval]
  | .array items => by rw [Evaluator.eval, Evaluator.eval, evalAll_eq L hc items]
  | .variable name accessors => by
    rw [Evaluator.eval, Evaluator.eval, evalAll_eq L hc accessors, Context.resolve,
      Context.resolve, L.contexts.find?_eq hc]
  | .call name args => by
    rw [Evaluator.eval, Evaluator.eval, evalAll_eq L hc args, L.evaluator_eq]
  | .negation operand => by rw [Evaluator.eval, Evaluator.eval, eval_eq L hc operand]
  | .logical .and left right => by
    rw [Evaluator.eval, Evaluator.eval, eval_eq L hc left, eval_eq L hc right]
  | .logical .or left right => by
    rw [Evaluator.eval, Evaluator.eval, eval_eq L hc left, eval_eq L hc right]
  | .comparison op left right => by
    rw [Evaluator.eval, Evaluator.eval, eval_eq L hc left, eval_eq L hc right]
  | .invalid source => by rw [Evaluator.eval, Evaluator.eval]

theorem evalAll_eq (L : Link r r') {c c' : Context} (hc : L.contexts c c') :
    ∀ es : List Expr, r.evaluator.evalAll c es = r'.evaluator.evalAll c' es
  | [] => by rw [Evaluator.evalAll, Evaluator.evalAll]
  | e :: es => by
    rw [Evaluator.evalAll, Evaluator.evalAll, eval_eq L hc e, evalAll_eq L hc es]

end

section Values

variable (L : Link r r') {c c' : Context} (hc : L.contexts c c')

include hc

theorem condition_eq (e : Expr) : r.evaluator.condition c e = r'.evaluator.condition c' e := by
  rw [Evaluator.condition, Evaluator.condition, L.eval_eq hc]

theorem output_eq (e : Expr) : r.evaluator.output c e = r'.evaluator.output c' e := by
  rw [Evaluator.output, Evaluator.output, L.eval_eq hc]

theorem messageFor?_eq (field : String) : r.messageFor? c field = r'.messageFor? c' field := by
  simp only [Renderer.messageFor?, L.contexts.find?_eq hc, L.evaluator_eq]

theorem interpolationText_eq (e : Expr) (escape : Bool) :
    r.interpolationText c e escape = r'.interpolationText c' e escape := by
  simp only [Renderer.interpolationText, L.output_eq hc]

theorem yieldText_eq (sections : Entries String) (name : Expr) (default : Option Expr) :
    r.yieldText c sections name default = r'.yieldText c' sections name default := by
  have houtput : r.evaluator.output c = r'.evaluator.output c' := funext (L.output_eq hc)
  simp only [Renderer.yieldText, houtput, L.contexts.find?_eq hc]

theorem assetText_eq (kind : AssetKind) (paths : Expr) :
    r.assetText c kind paths = r'.assetText c' kind paths := by
  simp only [Renderer.assetText, L.eval_eq hc, L.assets_eq]

end Values

/-! ## Trees -/

theorem tracks_bindTurn {L : Link r r'} (key : Option String) (item : String) (turn : Value × Value) :
    L.Tracks (Renderer.bindTurn key item turn) (Renderer.bindTurn key item turn) := by
  cases key with
  | none => exact .bindName _ _
  | some name => exact .bind (.bindName _ _) fun _ => .bindName _ _

mutual

/-- Rendering a node is tracked when entering views is. -/
theorem tracks_renderNode {L : Link r r'} {enter enter' : Enter}
    (henter : ∀ f name, L.Tracks (enter f name) (enter' (f.within L.outer) name)) (f : Frame) :
    ∀ n : Node, L.Tracks (r.renderNode enter f n) (r'.renderNode enter' (f.within L.outer) n)
  | .text content _ => by
    rw [Renderer.renderNode, Renderer.renderNode]
    exact .pure _
  | .interpolation expr escape _ => by
    rw [Renderer.renderNode, Renderer.renderNode]
    refine .context_bind fun c c' hc => ?_
    rw [L.interpolationText_eq hc]
    exact .pure _
  | .conditional condition consequent none _ => by
    rw [Renderer.renderNode, Renderer.renderNode]
    refine .context_bind fun c c' hc => ?_
    rw [L.condition_eq hc]
    split
    · exact tracks_renderNodes henter f consequent
    · exact .pure _
  | .conditional condition consequent (some alternate) _ => by
    rw [Renderer.renderNode, Renderer.renderNode]
    refine .context_bind fun c c' hc => ?_
    rw [L.condition_eq hc]
    split
    · exact tracks_renderNodes henter f consequent
    · exact tracks_renderNodes henter f alternate
  | .loop source key item body _ => by
    rw [Renderer.renderNode, Renderer.renderNode]
    refine .context_bind fun c c' hc => ?_
    rw [L.eval_eq hc]
    refine .foldlM (fun out turn => ?_) _ _
    exact .bind (tracks_bindTurn key item turn) fun _ =>
      .bind (tracks_renderNodes henter f body) fun _ => .pure _
  | .includeView view _ => by
    rw [Renderer.renderNode, Renderer.renderNode]
    refine .context_bind fun c c' hc => ?_
    rw [L.output_eq hc]
    exact henter f _
  | .errorBlock field body oneLine _ => by
    rw [Renderer.renderNode, Renderer.renderNode]
    refine .context_bind fun c c' hc => ?_
    rw [L.output_eq hc, L.messageFor?_eq hc]
    split
    · exact .pure _
    · rename_i message _
      exact .bind (.detached (L.contexts.bind_bind hc "message" message)
        (tracks_renderNodes henter f.detach body)) fun _ => .pure _
  | .yieldSection name default _ => by
    rw [Renderer.renderNode, Renderer.renderNode]
    refine .context_bind fun c c' hc => ?_
    rw [L.yieldText_eq hc]
    exact .pure _
  | .sectionBlock _ body _ => by
    have hmode : (f.within L.outer).mode = f.mode := rfl
    rw [Renderer.renderNode, Renderer.renderNode, hmode]
    split
    · exact .pure _
    · exact tracks_renderNodes henter f body
  | .sectionValue _ _ _ => by
    rw [Renderer.renderNode, Renderer.renderNode]
    exact .pure _
  | .extendsLayout _ _ => by
    rw [Renderer.renderNode, Renderer.renderNode]
    exact .pure _
  | .csrf _ => by
    rw [Renderer.renderNode, Renderer.renderNode, L.formField_eq]
    exact .pure _
  | .asset kind paths _ => by
    rw [Renderer.renderNode, Renderer.renderNode]
    refine .context_bind fun c c' hc => ?_
    rw [L.assetText_eq hc]
    exact .pure _

theorem tracks_renderNodes {L : Link r r'} {enter enter' : Enter}
    (henter : ∀ f name, L.Tracks (enter f name) (enter' (f.within L.outer) name)) (f : Frame) :
    ∀ ns : List Node,
      L.Tracks (r.renderNodes enter f ns) (r'.renderNodes enter' (f.within L.outer) ns)
  | [] => by
    rw [Renderer.renderNodes, Renderer.renderNodes]
    exact .pure _
  | n :: ns => by
    rw [Renderer.renderNodes, Renderer.renderNodes]
    exact .bind (tracks_renderNode henter f n) fun _ =>
      .bind (tracks_renderNodes henter f ns) fun _ => .pure _

end

theorem tracks_renderSection {L : Link r r'} {enter enter' : Enter}
    (henter : ∀ f name, L.Tracks (enter f name) (enter' (f.within L.outer) name)) (f : Frame)
    (part : Section) :
    L.Tracks (r.renderSection enter f part) (r'.renderSection enter' (f.within L.outer) part) := by
  cases part with
  | block name body => exact tracks_renderNodes henter f body
  | value name expr =>
    refine .context_bind fun c c' hc => ?_
    rw [L.output_eq hc]
    exact .pure _

theorem tracks_renderSections {L : Link r r'} {enter enter' : Enter}
    (henter : ∀ f name, L.Tracks (enter f name) (enter' (f.within L.outer) name)) (f : Frame)
    (done : Entries String) (parts : List Section) :
    L.Tracks (r.renderSections enter f done parts)
      (r'.renderSections enter' (f.within L.outer) done parts) := by
  induction parts generalizing done with
  | nil => exact .pure _
  | cons part parts ih =>
    rw [Renderer.renderSections, Renderer.renderSections]
    split
    · exact ih done
    · exact .bind (tracks_renderSection henter f part) fun text => ih _

theorem tracks_renderRoot {L : Link r r'} {enter enter' layout layout' : Enter}
    (henter : ∀ f name, L.Tracks (enter f name) (enter' (f.within L.outer) name))
    (hlayout : ∀ f name, L.Tracks (layout f name) (layout' (f.within L.outer) name)) (f : Frame)
    (root : Root) :
    L.Tracks (r.renderRoot enter layout f root)
      (r'.renderRoot enter' layout' (f.within L.outer) root) := by
  rw [Renderer.renderRoot, Renderer.renderRoot]
  refine .bind (tracks_renderNodes henter _ _) fun body => ?_
  split
  · exact .pure _
  · refine .bind (tracks_renderSections henter _ _ _) fun own => ?_
    refine .context_bind fun c c' hc => ?_
    exact .detached (L.contexts.layoutContext hc _) (hlayout _ _)

/-! ## Views and pages -/

/-- How many more views may be entered: equally many in both renders, or the first one goes off
where it may enter none. -/
def Levels (L : Link r r') (levels levels' : Nat) : Prop :=
  levels = levels' ∧ r.options.maxDepth = r'.options.maxDepth ∨
    levels ≤ levels' ∧ ∀ record, L.off (some (.depthExceeded r.options.maxDepth)) record

theorem Levels.exists_succ {L : Link r r'} {levels levels' : Nat}
    (h : L.Levels (levels + 1) levels') : ∃ next, levels' = next + 1 ∧ L.Levels levels next := by
  cases levels' with
  | zero => rcases h with ⟨h, -⟩ | ⟨h, -⟩ <;> omega
  | succ next =>
    refine ⟨next, rfl, h.imp (fun ⟨heq, hmax⟩ => ⟨by omega, hmax⟩) fun ⟨hle, hoff⟩ => ⟨?_, hoff⟩⟩
    omega

/-- Where the first render may enter no view, it fails as the second one does, or goes off. -/
theorem Levels.tracks_zero {L : Link r r'} {levels' : Nat} (h : L.Levels 0 levels')
    (next' : Nat → Render α) :
    L.Tracks (MonadExcept.throw (.depthExceeded r.options.maxDepth))
      (match levels' with
        | 0 => MonadExcept.throw (.depthExceeded r'.options.maxDepth)
        | levels' + 1 => next' levels') := by
  rcases h with ⟨rfl, hmax⟩ | ⟨-, hoff⟩
  · rw [hmax]
    exact .throw _
  · exact .of_off fun s => hoff s.record

theorem cycleOf_append {chain : List String} {name : String} (h : name ∈ chain)
    (outer : List String) :
    Renderer.cycleOf (chain ++ outer) name = Renderer.cycleOf chain name := by
  suffices htake : (chain ++ outer).takeWhile (· ≠ name) = chain.takeWhile (· ≠ name) by
    rw [Renderer.cycleOf, Renderer.cycleOf, htake]
  induction chain with
  | nil => cases h
  | cons view chain ih =>
    by_cases hview : view = name
    · simp [hview]
    · have hmem : name ∈ chain := (List.mem_cons.1 h).resolve_left (Ne.symm hview)
      simpa [hview] using ih hmem

theorem enterFrame_within {f : Frame} {name : String} {outer : List String} (h : name ∉ outer) :
    Renderer.enterFrame (f.within outer) name =
      (Renderer.enterFrame f name).map (·.within outer) := by
  by_cases hname : name ∈ f.chain
  · simp [Renderer.enterFrame, Frame.within, hname, cycleOf_append hname, Except.map]
  · simp [Renderer.enterFrame, Frame.within, hname, h, Except.map]

/-- Entering a view that is not among the outer ones is tracked when what is done inside is. -/
theorem tracks_enterFrame_bind {L : Link r r'} {f : Frame} {name : String} (h : name ∉ L.outer)
    {next next' : Frame → Render α}
    (hn : ∀ inner, L.Tracks (next inner) (next' (inner.within L.outer))) :
    L.Tracks (liftM (Renderer.enterFrame f name) >>= next)
      (liftM (Renderer.enterFrame (f.within L.outer) name) >>= next') := by
  rw [enterFrame_within h]
  cases Renderer.enterFrame f name with
  | error e => exact .throw e
  | ok inner => exact hn inner

/-- A link under which the two renderers load views alike. A request and the load it asks for are
taken together, because a link may look at the requests to know what was loaded. To ask for one of
the outer views puts the first render off. -/
structure Loading (L : Link r r') : Prop where
  request : ∀ q : Request,
    L.Tracks (Render.note q >>= fun _ => r.load q.view)
      (Render.note { q with frame := q.frame.within L.outer } >>= fun _ => r'.load q.view)
  off_missing : ∀ {name path record}, L.off (some (.viewNotFound name path)) record →
    L.off none record
  off_include : ∀ levels f, ∀ name ∈ L.outer, name ≠ "" → ∀ s,
    L.off (Render.failure? (r.renderInclude levels f name s).1)
      (r.renderInclude levels f name s).2.record
  off_page : ∀ route levels f, ∀ name ∈ L.outer, ∀ s,
    L.off (Render.failure? (r.renderPage route levels f name s).1)
      (r.renderPage route levels f name s).2.record

theorem Loading.of_outer_eq_nil {L : Link r r'} (houter : L.outer = [])
    (hrequest : ∀ q : Request,
      L.Tracks (Render.note q >>= fun _ => r.load q.view)
        (Render.note q >>= fun _ => r'.load q.view))
    (hmissing : ∀ {name path record}, L.off (some (.viewNotFound name path)) record →
      L.off none record) : L.Loading where
  request := fun q => by
    rw [houter, Frame.within_nil]
    exact hrequest q
  off_missing := hmissing
  off_include := fun _ _ _ h => by rw [houter] at h; cases h
  off_page := fun _ _ _ _ h => by rw [houter] at h; cases h

theorem loadIncluded_apply (r : Renderer) (q : Request) (s : RenderState) :
    (Render.note q >>= fun _ => r.loadIncluded q.view) s =
      match (Render.note q >>= fun _ => r.load q.view) s with
      | (.error (.viewNotFound _ _), s) => (.ok none, s)
      | (.error e, s) => (.error e, s)
      | (.ok parsed, s) => (.ok (some parsed), s) := rfl

namespace Loading

variable {L : Link r r'} (hl : L.Loading)

include hl

theorem tracks_loadIncluded (q : Request) :
    L.Tracks (Render.note q >>= fun _ => r.loadIncluded q.view)
      (Render.note { q with frame := q.frame.within L.outer } >>= fun _ =>
        r'.loadIncluded q.view) where
  off := by
    intro s hs
    have hoff := (hl.request q).off s hs
    rw [loadIncluded_apply]
    rcases hload : (Render.note q >>= fun _ => r.load q.view) s with ⟨e | parsed, t⟩
    · rw [hload] at hoff
      cases e with
      | viewNotFound name path => exact hl.off_missing hoff
      | _ => exact hoff
    · rw [hload] at hoff
      exact hoff
  agree := by
    intro s s' hs
    let q' : Request := { q with frame := q.frame.within L.outer }
    have hagree := (hl.request q).agree s s' hs
    rw [loadIncluded_apply, loadIncluded_apply r' q']
    rcases hload : (Render.note q >>= fun _ => r.load q.view) s with ⟨e | parsed, t⟩
    · rw [hload] at hagree
      rcases hagree with hoff | ⟨hr, ht⟩
      · left
        cases e with
        | viewNotFound name path => exact hl.off_missing hoff
        | _ => exact hoff
      · right
        rcases hload' : (Render.note q' >>= fun _ => r'.load q'.view) s' with ⟨e' | parsed', t'⟩
        · rw [hload'] at hr ht
          cases hr
          cases e <;> exact ⟨rfl, ht⟩
        · rw [hload'] at hr
          cases hr
    · rw [hload] at hagree
      rcases hagree with hoff | ⟨hr, ht⟩
      · exact .inl hoff
      · right
        rcases hload' : (Render.note q' >>= fun _ => r'.load q'.view) s' with ⟨e' | parsed', t'⟩
        · rw [hload'] at hr
          cases hr
        · rw [hload'] at hr ht
          cases hr
          exact ⟨rfl, ht⟩

theorem tracks_load_bind (q : Request) {next next' : Parsed → Render α}
    (hn : ∀ parsed, L.Tracks (next parsed) (next' parsed)) :
    L.Tracks (Render.note q >>= fun _ => r.load q.view >>= next)
      (Render.note { q with frame := q.frame.within L.outer } >>= fun _ =>
        r'.load q.view >>= next') := by
  simpa only [bind_assoc] using (hl.request q).bind hn

theorem tracks_loadIncluded_bind (q : Request) {next next' : Option Parsed → Render α}
    (hn : ∀ parsed, L.Tracks (next parsed) (next' parsed)) :
    L.Tracks (Render.note q >>= fun _ => r.loadIncluded q.view >>= next)
      (Render.note { q with frame := q.frame.within L.outer } >>= fun _ =>
        r'.loadIncluded q.view >>= next') := by
  simpa only [bind_assoc] using (hl.tracks_loadIncluded q).bind hn

/-- Rendering an included view is tracked, however many more views may be entered. -/
theorem tracks_renderInclude (levels levels' : Nat) (h : L.Levels levels levels') (f : Frame)
    (name : String) :
    L.Tracks (r.renderInclude levels f name)
      (r'.renderInclude levels' (f.within L.outer) name) := by
  by_cases houter : name ∈ L.outer ∧ name ≠ ""
  · exact .of_off (hl.off_include levels f name houter.1 houter.2)
  · rw [Renderer.renderInclude, Renderer.renderInclude]
    split
    · exact .pure _
    · rename_i hname
      refine hl.tracks_loadIncluded_bind ⟨name, .inclusion, f⟩ fun parsed => ?_
      cases parsed with
      | none => exact .pure _
      | some parsed =>
        refine tracks_enterFrame_bind (fun hmem => houter ⟨hmem, hname⟩) fun inner => ?_
        cases levels with
        | zero => exact h.tracks_zero _
        | succ levels =>
          obtain ⟨next, rfl, hnext⟩ := h.exists_succ
          exact tracks_renderNodes (tracks_renderInclude levels next hnext) _ _

theorem tracks_renderPage (route : Route) (levels levels' : Nat) (h : L.Levels levels levels')
    (f : Frame) (name : String) :
    L.Tracks (r.renderPage route levels f name)
      (r'.renderPage route levels' (f.within L.outer) name) := by
  by_cases houter : name ∈ L.outer
  · exact .of_off (hl.off_page route levels f name houter)
  · rw [Renderer.renderPage, Renderer.renderPage]
    refine hl.tracks_load_bind ⟨name, route, f⟩ fun parsed => ?_
    refine tracks_enterFrame_bind houter fun inner => ?_
    cases levels with
    | zero => exact h.tracks_zero _
    | succ levels =>
      obtain ⟨next, rfl, hnext⟩ := h.exists_succ
      exact tracks_renderRoot (hl.tracks_renderInclude levels next hnext)
        (tracks_renderPage .layout levels next hnext) _ _

/-- Whole renders are tracked. For a template that is no view the check of the template has to be. -/
theorem tracks_render (houter : L.outer = [])
    (hlevels : L.Levels r.options.maxDepth r'.options.maxDepth) (entry : Entry)
    (hsource : ∀ text, entry = .source text →
      L.Tracks
        (liftM (r.check Renderer.inlineName (parseTemplate r.options.markers text)))
        (liftM (r'.check Renderer.inlineName (parseTemplate r'.options.markers text)))) :
    L.Tracks (r.render entry) (r'.render entry) := by
  cases entry with
  | view name =>
    rw [Renderer.render, Renderer.render, Renderer.renderView, Renderer.renderView]
    have hpage := hl.tracks_renderPage .entry _ _ hlevels Frame.outermost name
    rwa [houter] at hpage
  | source text =>
    rw [Renderer.render, Renderer.render, Renderer.renderSource, Renderer.renderSource]
    refine (hsource text rfl).bind fun parsed => ?_
    have hroot := tracks_renderRoot (hl.tracks_renderInclude _ _ hlevels)
      (hl.tracks_renderPage .layout _ _ hlevels) Frame.outermost parsed.root
    rwa [houter] at hroot

end Loading

end Link

end Templating
