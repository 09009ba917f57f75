import Templating.Proofs.Render.Agreement

/-!
# What a render does to its state

A `Course` relates the state before and the state after whatever is rendered in a frame, whether it
succeeds or fails. To show that a whole tree follows a course it is enough to look at the two things
in it that touch the state: the names that its loops bind and the views that it includes. Those that
stand in error blocks work on a copy of the context, so they are looked at apart
(`follows_renderNodes`).
-/

namespace Templating

namespace Node

mutual

/-- A node and the nodes below it, apart from what stands in an error block. -/
def outsideErrorsOf : Node → List Node
  | .conditional condition consequent none loc =>
    .conditional condition consequent none loc :: outsideErrors consequent
  | .conditional condition consequent (some alternate) loc =>
    .conditional condition consequent (some alternate) loc ::
      (outsideErrors consequent ++ outsideErrors alternate)
  | .loop source key item body loc => .loop source key item body loc :: outsideErrors body
  | .sectionBlock name body loc => .sectionBlock name body loc :: outsideErrors body
  | n => [n]

def outsideErrors : List Node → List Node
  | [] => []
  | n :: ns => outsideErrorsOf n ++ outsideErrors ns

end

def loopNames : Node → List String
  | .loop _ key item _ _ => key.toList ++ [item]
  | _ => []

end Node

/-- A relation between the states before and after a render in a frame. Rendering nothing is on
course, so are two renders one after the other, and so is one in a copy of the context, which comes
back afterwards. -/
structure Course where
  Leads : Frame → RenderState → RenderState → Prop
  refl : ∀ f s, Leads f s s
  trans : ∀ {f s t u}, Leads f s t → Leads f t u → Leads f s u
  detached : ∀ {f c s t}, Leads f.detach { s with context := c } t →
    Leads f s { t with context := s.context }

theorem Renderer.enterFrame_eq_ok {f inner : Frame} {name : String}
    (h : Renderer.enterFrame f name = .ok inner) : inner = { f with chain := name :: f.chain } := by
  unfold Renderer.enterFrame at h
  split at h
  · cases h
  · cases h
    rfl

namespace Course

variable {C : Course} {r : Renderer} {enter layout : Enter} {f : Frame} {α β γ : Type}

/-- From every state, `act` leads to a state that is on course. -/
def Follows (C : Course) (f : Frame) (act : Render α) : Prop :=
  ∀ s, C.Leads f s (act s).2

def Binds (C : Course) (f : Frame) (name : String) : Prop :=
  ∀ s value, C.Leads f s { s with context := s.context.bind name value }

namespace Follows

theorem pure (a : α) : C.Follows f (Pure.pure a) :=
  C.refl f

theorem lift (x : Except RenderError α) : C.Follows f (liftM x : Render α) := by
  intro s
  cases x <;> exact C.refl f s

theorem throw (e : RenderError) : C.Follows f (throw e : Render α) :=
  lift (.error e)

theorem bind {act : Render α} {next : α → Render β} (h : C.Follows f act)
    (hn : ∀ a, C.Follows f (next a)) : C.Follows f (act >>= next) := by
  intro s
  have hs := h s
  rw [Render.bind_apply]
  rcases hact : act s with ⟨e | a, t⟩
  · rw [hact] at hs
    exact hs
  · rw [hact] at hs
    exact C.trans hs (hn a t)

theorem lift_bind {x : Except RenderError α} {next : α → Render β}
    (h : ∀ a, x = .ok a → C.Follows f (next a)) : C.Follows f ((liftM x : Render α) >>= next) := by
  cases x with
  | error e => exact throw e
  | ok a => exact h a rfl

theorem context_bind {next : Context → Render α} (h : ∀ c, C.Follows f (next c)) :
    C.Follows f (Render.context >>= next) :=
  fun s => h s.context s

theorem bindName {name : String} (h : C.Binds f name) (value : Value) :
    C.Follows f (Render.bindName name value) :=
  fun s => h s value

theorem inDetached {act : Render α} (h : C.Follows f.detach act) (c : Context) :
    C.Follows f (Render.detached c act) :=
  fun s => C.detached (h { s with context := c })

theorem foldlM {step : β → γ → Render β} (h : ∀ b x, C.Follows f (step b x)) (xs : List γ) (b : β) :
    C.Follows f (xs.foldlM step b) := by
  induction xs generalizing b with
  | nil => exact pure b
  | cons x xs ih =>
    rw [List.foldlM_cons]
    exact (h b x).bind ih

theorem mapM {act : β → Render γ} (h : ∀ x, C.Follows f (act x)) (xs : List β) :
    C.Follows f (xs.mapM act) := by
  induction xs with
  | nil => exact pure []
  | cons x xs ih =>
    rw [List.mapM_cons]
    exact (h x).bind fun _ => ih.bind fun _ => pure _

end Follows

/-- Everything is on course in the frame: all names may be bound and all views entered. -/
structure Free (C : Course) (enter : Enter) (f : Frame) : Prop where
  bind : ∀ name, C.Binds f name
  enter : ∀ name, C.Follows f (enter f name)

/-- What a tree does outside its error blocks is on course: the names that its loops bind, and the
views that it includes. -/
structure Allows (C : Course) (r : Renderer) (enter : Enter) (f : Frame) (ns : List Node) :
    Prop where
  bind : ∀ n ∈ Node.outsideErrors ns, ∀ name ∈ n.loopNames, C.Binds f name
  enter : ∀ view loc, .includeView view loc ∈ Node.outsideErrors ns →
    ∀ c, C.Follows f (enter f (r.evaluator.output c view))

theorem Free.allows (h : C.Free enter f) (ns : List Node) : C.Allows r enter f ns where
  bind := fun _ _ name _ => h.bind name
  enter := fun _ _ _ _ => h.enter _

theorem Allows.mono {ms ns : List Node} (h : C.Allows r enter f ns)
    (hsub : Node.outsideErrors ms ⊆ Node.outsideErrors ns) : C.Allows r enter f ms where
  bind := fun n hn => h.bind n (hsub hn)
  enter := fun view loc hview => h.enter view loc (hsub hview)

theorem follows_bindTurn {key : Option String} {item : String}
    (h : ∀ name ∈ key.toList ++ [item], C.Binds f name) (turn : Value × Value) :
    C.Follows f (Renderer.bindTurn key item turn) := by
  cases key with
  | none => exact .bindName (h item (by simp)) _
  | some name =>
    exact .bind (.bindName (h name (by simp)) _) fun _ => .bindName (h item (by simp)) _

mutual

/-- A node is on course when it is outside its error blocks and everything is in a copy of the
context. The second is what an error block needs, at whatever depth it stands. -/
theorem follows_renderNode (f : Frame) (hfree : C.Free enter f.detach) :
    ∀ n : Node, C.Allows r enter f [n] → C.Follows f (r.renderNode enter f n)
  | .text _ _, _ => by
    rw [Renderer.renderNode]
    exact .pure _
  | .interpolation _ _ _, _ => by
    rw [Renderer.renderNode]
    exact .context_bind fun _ => .pure _
  | .conditional _ consequent none _, h => by
    rw [Renderer.renderNode]
    refine .context_bind fun c => ?_
    split
    · refine follows_renderNodes f hfree consequent (h.mono ?_)
      simp [Node.outsideErrors, Node.outsideErrorsOf]
    · exact .pure _
  | .conditional _ consequent (some alternate) _, h => by
    rw [Renderer.renderNode]
    refine .context_bind fun c => ?_
    split
    · refine follows_renderNodes f hfree consequent (h.mono ?_)
      simp [Node.outsideErrors, Node.outsideErrorsOf]
    · refine follows_renderNodes f hfree alternate (h.mono ?_)
      simp [Node.outsideErrors, Node.outsideErrorsOf]
  | .loop source key item body loc, h => by
    rw [Renderer.renderNode]
    have hturn := h.bind (.loop source key item body loc)
      (by simp [Node.outsideErrors, Node.outsideErrorsOf])
    refine .context_bind fun c => .foldlM (fun out turn => ?_) _ _
    refine .bind (follows_bindTurn hturn turn) fun _ => .bind ?_ fun _ => .pure _
    refine follows_renderNodes f hfree body (h.mono ?_)
    simp [Node.outsideErrors, Node.outsideErrorsOf]
  | .includeView view loc, h => by
    rw [Renderer.renderNode]
    refine .context_bind fun c => h.enter view loc ?_ c
    simp [Node.outsideErrors, Node.outsideErrorsOf]
  | .errorBlock _ body _ _, _ => by
    rw [Renderer.renderNode]
    refine .context_bind fun c => ?_
    split
    · exact .pure _
    · have hbody := follows_renderNodes f.detach hfree body (hfree.allows body)
      exact .bind (hbody.inDetached _) fun _ => .pure _
  | .yieldSection _ _ _, _ => by
    rw [Renderer.renderNode]
    exact .context_bind fun _ => .pure _
  | .sectionBlock _ body _, h => by
    rw [Renderer.renderNode]
    split
    · exact .pure _
    · refine follows_renderNodes f hfree body (h.mono ?_)
      simp [Node.outsideErrors, Node.outsideErrorsOf]
  | .sectionValue _ _ _, _ => by
    rw [Renderer.renderNode]
    exact .pure _
  | .extendsLayout _ _, _ => by
    rw [Renderer.renderNode]
    exact .pure _
  | .csrf _, _ => by
    rw [Renderer.renderNode]
    exact .pure _
  | .asset _ _ _, _ => by
    rw [Renderer.renderNode]
    exact .context_bind fun _ => .pure _

theorem follows_renderNodes (f : Frame) (hfree : C.Free enter f.detach) :
    ∀ ns : List Node, C.Allows r enter f ns → C.Follows f (r.renderNodes enter f ns)
  | [], _ => by
    rw [Renderer.renderNodes]
    exact .pure _
  | n :: ns, h => by
    rw [Renderer.renderNodes]
    refine .bind (follows_renderNode f hfree n (h.mono ?_)) fun _ =>
      .bind (follows_renderNodes f hfree ns (h.mono ?_)) fun _ => .pure _
    · simp [Node.outsideErrors]
    · simp [Node.outsideErrors]

end

theorem follows_renderSection (hfree : C.Free enter f.detach) (part : Section)
    (h : ∀ name body, part = .block name body → C.Allows r enter f body) :
    C.Follows f (r.renderSection enter f part) := by
  cases part with
  | block name body => exact follows_renderNodes f hfree body (h name body rfl)
  | value name expr => exact .context_bind fun _ => .pure _

theorem follows_renderSections (hfree : C.Free enter f.detach) (done : Entries String)
    (parts : List Section)
    (h : ∀ name body, Section.block name body ∈ parts → C.Allows r enter f body) :
    C.Follows f (r.renderSections enter f done parts) := by
  induction parts generalizing done with
  | nil => exact .pure _
  | cons part parts ih =>
    have hrest := fun done => ih done fun name body hpart =>
      h name body (List.mem_cons_of_mem _ hpart)
    rw [Renderer.renderSections]
    split
    · exact hrest done
    · refine .bind (follows_renderSection hfree part fun name body hpart => ?_) fun _ => hrest _
      exact h name body (hpart ▸ List.mem_cons_self)

/-- The template of a page is on course when its body and its sections are, and its layout is in a
copy of the context. -/
theorem follows_renderRoot {root : Root} (hmode : f.mode = .setAside)
    (hfree : C.Free enter f.detach) (hbody : C.Allows r enter f root.children)
    (hsections : (Node.firstLayout? root.children).isSome → ∀ name body,
      Section.block name body ∈ Section.ofNodes root.children → C.Allows r enter f body)
    (hlayout : ∀ sections name,
      C.Follows f.detach (layout { f.detach with sections := sections } name)) :
    C.Follows f (r.renderRoot enter layout f root) := by
  have hframe : { f with mode := SectionMode.setAside } = f := by
    cases f
    cases hmode
    rfl
  rw [Renderer.renderRoot, hframe]
  refine .bind (follows_renderNodes f hfree _ hbody) fun body => ?_
  cases hname : Node.firstLayout? root.children with
  | none => exact .pure _
  | some name =>
    refine .bind (follows_renderSections hfree _ _ (hsections (by rw [hname]; rfl))) fun own => ?_
    exact .context_bind fun c => (hlayout _ _).inDetached _

end Course

end Templating
