import Templating.Proofs.Template.Builder

/-!
# Matching opening and closing directives

Whether the blocks of a template are closed in order is seen from its tokens alone, by a machine
that keeps a `Mark` for every open block on a stack and looks at nothing but its top. The parser
complains of exactly what the machine complains of (`structuralErrors_parseTokens`).
-/

namespace Templating

inductive BlockKind where
  | conditional
  | loop
  | errorBlock
  | sectionBlock
deriving DecidableEq, Repr

namespace BlockKind

def opener : BlockKind → Directive
  | .conditional => .openIf
  | .loop => .openForeach
  | .errorBlock => .openError
  | .sectionBlock => .openSection

/-- The kind of block that a directive opens. A section opens one when its arguments are a static
name and nothing else. -/
def opened? (kind : Directive) (args : String) : Option BlockKind :=
  match kind with
  | .openIf => some .conditional
  | .openForeach => some .loop
  | .openError => some .errorBlock
  | .openSection =>
    match Expr.parseArguments args with
    | [name] => if name.staticName?.isSome then some .sectionBlock else none
    | _ => none
  | _ => none

def closed? : Directive → Option BlockKind
  | .endIf => some .conditional
  | .endForeach => some .loop
  | .endError => some .errorBlock
  | .endSection => some .sectionBlock
  | _ => none

end BlockKind

/-- An open block: its kind, whether its `@else` has come, and the offsets of the directive that
opened it. -/
structure Mark where
  kind : BlockKind
  switched : Bool
  start : Nat
  stop : Nat

structure Complaint where
  fault : TemplateFault
  start : Nat
  stop : Nat

def Complaint.locate (source : Source) (c : Complaint) : TemplateError :=
  ⟨c.fault, source.location c.start c.stop⟩

namespace Mark

def unclosed (mark : Mark) : Complaint :=
  ⟨.unclosedBlock mark.kind.opener, mark.start, mark.stop⟩

/-- The complaint about a directive that closes or splits no block; a section's closing directive
may stand anywhere. -/
def stray (kind : Directive) (t : Token) : Option Complaint :=
  if kind = .endSection then none else some ⟨.unexpectedCloser kind, t.start, t.stop⟩

/-- A directive that closes blocks of the kind `block`: it closes the top of the stack if that is of
this kind. -/
def close (stack : List Mark) (block : BlockKind) (kind : Directive) (t : Token) :
    List Mark × Option Complaint :=
  if stack.head?.any (·.kind = block) then (stack.tail, none) else (stack, stray kind t)

/-- An `@else`: it belongs to the top of the stack if that is a condition. -/
def switch (stack : List Mark) (t : Token) : List Mark × Option Complaint :=
  match stack with
  | ⟨.conditional, false, start, stop⟩ :: outer => (⟨.conditional, true, start, stop⟩ :: outer, none)
  | ⟨.conditional, true, _, _⟩ :: _ => (stack, some ⟨.duplicateElse, t.start, t.stop⟩)
  | _ => (stack, stray .otherwise t)

def stepDirective (stack : List Mark) (kind : Directive) (args : String) (t : Token) :
    List Mark × Option Complaint :=
  match BlockKind.opened? kind args, BlockKind.closed? kind with
  | some block, _ => (⟨block, false, t.start, t.stop⟩ :: stack, none)
  | none, some block => close stack block kind t
  | none, none => if kind = .otherwise then switch stack t else (stack, none)

def step (stack : List Mark) (t : Token) : List Mark × Option Complaint :=
  match t.kind with
  | .directive kind args => stepDirective stack kind (String.ofList (args.getD [])) t
  | _ => (stack, none)

/-- The complaints about tokens that are read with the blocks of `stack` open. What is open at the
end is complained of from the top of the stack down. -/
def complaints (stack : List Mark) : List Token → List Complaint
  | [] => stack.map unclosed
  | t :: ts => (step stack t).2.toList ++ complaints (step stack t).1 ts

end Mark

def TemplateFault.isStructural : TemplateFault → Bool
  | .unclosedBlock _ | .unexpectedCloser _ | .duplicateElse => true
  | _ => false

def structuralErrors (errors : List TemplateError) : List TemplateError :=
  errors.filter (·.fault.isStructural)

/-! ## The machine and the parser -/

def Opened.kind : Opened → BlockKind
  | .conditional .. => .conditional
  | .loop .. => .loop
  | .errorBlock _ => .errorBlock
  | .sectionBlock _ => .sectionBlock

def Opened.switched : Opened → Bool
  | .conditional _ consequent => consequent.isSome
  | _ => false

def OpenBlock.mark (block : OpenBlock) : Mark :=
  ⟨block.opened.kind, block.opened.switched, block.start, block.stop⟩

theorem structuralErrors_append (es es' : List TemplateError) :
    structuralErrors (es ++ es') = structuralErrors es ++ structuralErrors es' :=
  List.filter_append _ _

theorem structuralErrors_reverse (es : List TemplateError) :
    structuralErrors es.reverse = (structuralErrors es).reverse :=
  List.filter_reverse

theorem Draft.enter_opened (source : Source) (d : Draft) (t : Token) {kind : Directive}
    {args : String} {block : BlockKind} (h : BlockKind.opened? kind args = some block) :
    ∃ d' opened, d.enter source kind args t = (d', some opened) ∧ opened.kind = block ∧
      opened.switched = false ∧ structuralErrors d'.errors = structuralErrors d.errors := by
  cases kind with
  | openIf =>
    cases h
    exact ⟨d, _, rfl, rfl, rfl, rfl⟩
  | openError =>
    cases h
    exact ⟨d, _, rfl, rfl, rfl, rfl⟩
  | openForeach =>
    cases h
    simp only [enter, enterLoop]
    split
    · exact ⟨d, _, rfl, rfl, rfl, rfl⟩
    · exact ⟨_, _, rfl, rfl, rfl, rfl⟩
  | openSection =>
    simp only [BlockKind.opened?] at h
    simp only [enter, enterSection]
    split at h
    · rename_i name hargs
      split at h
      · rename_i hname
        obtain ⟨s, hs⟩ := Option.isSome_iff_exists.1 hname
        cases h
        simp only [hargs, hs]
        exact ⟨d, _, rfl, rfl, rfl, rfl⟩
      · cases h
    · cases h
  | _ => cases h

/-- A directive that neither opens a block nor ends a run opens none in the parser either, and the
parser complains of it when it was meant to close or split a block. -/
theorem Draft.enter_other (source : Source) (d : Draft) (t : Token) {kind : Directive}
    {args : String} (h : BlockKind.opened? kind args = none) :
    ∃ d', d.enter source kind args t = (d', none) ∧
      structuralErrors d'.errors =
        ((if (BlockKind.closed? kind).isSome ∨ kind = .otherwise then Mark.stray kind t
          else none).map (Complaint.locate source)).toList ++ structuralErrors d.errors := by
  cases kind with
  | openIf => cases h
  | openError => cases h
  | openForeach => cases h
  | openSection =>
    simp only [BlockKind.opened?] at h
    simp only [enter, enterSection]
    split
    · exact ⟨_, rfl, rfl⟩
    · rename_i first others hargs
      cases hname : first.staticName? with
      | none => exact ⟨_, rfl, rfl⟩
      | some name =>
        cases others with
        | nil => simp [hargs, hname] at h
        | cons value others => exact ⟨_, rfl, rfl⟩
  | extendsLayout =>
    simp only [enter, pushLayout]
    refine ⟨_, rfl, ?_⟩
    split <;> rfl
  | _ => exact ⟨_, rfl, rfl⟩

theorem Opened.mem_stops_iff {opened : Opened} {kind : Directive} :
    kind ∈ opened.stops ↔
      BlockKind.closed? kind = some opened.kind ∨
        kind = .otherwise ∧ opened.kind = .conditional := by
  cases opened <;> cases kind <;> simp [Opened.stops, Opened.kind, BlockKind.closed?]

namespace Builder

def Follows (source : Source) (b : Builder) (d : Draft) (next : List Mark × Option Complaint) :
    Prop :=
  b.blocks.map OpenBlock.mark = next.1 ∧
    structuralErrors b.draft.errors =
      (next.2.map (Complaint.locate source)).toList ++ structuralErrors d.errors

theorem not_closes_top {blocks : List OpenBlock} {kind : Directive} {block : BlockKind}
    (hk : kind ∉ stops blocks) (hc : BlockKind.closed? kind = some block) :
    (blocks.map OpenBlock.mark).head?.any (·.kind = block) = false := by
  cases blocks with
  | nil => rfl
  | cons top outer =>
    have htop : ¬top.opened.kind = block := by
      rintro rfl
      exact hk (Opened.mem_stops_iff.2 (.inl hc))
    simpa [OpenBlock.mark] using htop

theorem switch_of_not_stops {blocks : List OpenBlock} {t : Token}
    (hk : Directive.otherwise ∉ stops blocks) :
    Mark.switch (blocks.map OpenBlock.mark) t =
      (blocks.map OpenBlock.mark, Mark.stray .otherwise t) := by
  cases blocks with
  | nil => rfl
  | cons top outer =>
    obtain ⟨opened, start, stop, before⟩ := top
    cases opened with
    | conditional condition consequent =>
      have hstop : Directive.otherwise ∈ (Opened.conditional condition consequent).stops :=
        Opened.mem_stops_iff.2 (.inr ⟨rfl, rfl⟩)
      exact absurd hstop hk
    | _ => rfl

theorem takeOther_follows {source : Source} {d : Draft} {blocks : List OpenBlock}
    {kind : Directive} {args : String} {t : Token} (hk : kind ∉ stops blocks) :
    Follows source (takeOther source ⟨d, blocks⟩ kind args t) d
      (Mark.stepDirective (blocks.map OpenBlock.mark) kind args t) := by
  unfold takeOther Mark.stepDirective
  cases ho : BlockKind.opened? kind args with
  | some block =>
    obtain ⟨d', opened, he, hkind, hswitched, herrors⟩ := Draft.enter_opened source d t ho
    simp only [he]
    exact ⟨by simp [OpenBlock.mark, hkind, hswitched], herrors⟩
  | none =>
    obtain ⟨d', he, herrors⟩ := Draft.enter_other source d t ho
    simp only [he]
    cases hc : BlockKind.closed? kind with
    | some block =>
      rw [hc, if_pos (.inl rfl)] at herrors
      simp only [Mark.close, not_closes_top hk hc, Bool.false_eq_true, if_false]
      exact ⟨rfl, herrors⟩
    | none =>
      by_cases hkind : kind = .otherwise
      · subst hkind
        rw [if_pos (.inr rfl)] at herrors
        simp only [if_true, switch_of_not_stops hk]
        exact ⟨rfl, herrors⟩
      · rw [hc, if_neg (by simp [hkind])] at herrors
        simp only [hkind, if_false]
        exact ⟨rfl, herrors⟩

theorem takeStop_follows {source : Source} {d : Draft} {block : OpenBlock}
    {outer : List OpenBlock} {kind : Directive} {args : String} {t : Token}
    (hk : kind ∈ block.opened.stops) :
    Follows source (takeStop source d block outer kind t) d
      (Mark.stepDirective ((block :: outer).map OpenBlock.mark) kind args t) := by
  rcases Opened.mem_stops_iff.1 hk with hc | ⟨rfl, htop⟩
  · have ho : BlockKind.opened? kind args = none := by
      cases kind <;> first | rfl | cases hc
    have hkind : kind ≠ .otherwise := by
      rintro rfl
      cases hc
    simp only [takeStop, hkind, if_false, Mark.stepDirective, ho, hc, Mark.close, List.map_cons,
      List.head?_cons, OpenBlock.mark, Option.any_some, decide_true, if_true, List.tail_cons]
    exact ⟨rfl, rfl⟩
  · obtain ⟨opened, start, stop, before⟩ := block
    cases opened with
    | conditional condition consequent => cases consequent <;> exact ⟨rfl, rfl⟩
    | _ => cases htop

/-- The parser's step and the machine's step go together. -/
theorem take_follows (source : Source) (d : Draft) (blocks : List OpenBlock) (t : Token) :
    Follows source (take source ⟨d, blocks⟩ t) d
      (Mark.step (blocks.map OpenBlock.mark) t) := by
  cases ht : t.kind with
  | text => simp only [take, Mark.step, ht]; exact ⟨rfl, rfl⟩
  | interpolation escape content => simp only [take, Mark.step, ht]; exact ⟨rfl, rfl⟩
  | directive kind args =>
    by_cases hk : kind ∈ stops blocks
    · cases blocks with
      | nil => cases hk
      | cons block outer =>
        rw [take_stop ht hk, Mark.step, ht]
        exact takeStop_follows hk
    · rw [take_other ht hk, Mark.step, ht]
      exact takeOther_follows hk

theorem structuralErrors_abandon (source : Source) (block : OpenBlock) (d : Draft) :
    structuralErrors (block.abandon source d).errors =
      block.mark.unclosed.locate source :: structuralErrors d.errors := by
  obtain ⟨opened, start, stop, before⟩ := block
  cases opened <;> rfl

theorem structuralErrors_abandonAll (source : Source) (d : Draft) (blocks : List OpenBlock) :
    (structuralErrors (abandonAll source d blocks).errors).reverse =
      (structuralErrors d.errors).reverse ++
        ((blocks.map OpenBlock.mark).map Mark.unclosed).map (Complaint.locate source) := by
  induction blocks generalizing d with
  | nil => simp [abandonAll]
  | cons block outer ih =>
    have hstep : abandonAll source d (block :: outer) =
        abandonAll source (block.abandon source d) outer := rfl
    rw [hstep, ih, structuralErrors_abandon]
    simp

theorem structuralErrors_build (source : Source) (d : Draft) (blocks : List OpenBlock)
    (ts : List Token) :
    (structuralErrors (build source d blocks ts).errors).reverse =
      (structuralErrors d.errors).reverse ++
        (Mark.complaints (blocks.map OpenBlock.mark) ts).map (Complaint.locate source) := by
  induction ts generalizing d blocks with
  | nil =>
    rw [build_nil, structuralErrors_abandonAll, Mark.complaints]
  | cons t ts ih =>
    obtain ⟨hblocks, herrors⟩ := take_follows source d blocks t
    rw [build_cons, ih, hblocks, herrors, Mark.complaints, List.map_append, List.reverse_append,
      List.append_assoc]
    cases (Mark.step (blocks.map OpenBlock.mark) t).2 <;> rfl

end Builder

/-- The faults of order that the parser finds in any list of tokens are the complaints of the
machine, at the same places and in the same order. -/
theorem structuralErrors_parseTokens (source : Source) (ts : List Token) :
    structuralErrors (parseTokens source ts).2 =
      (Mark.complaints [] ts).map (Complaint.locate source) := by
  rw [parseTokens_eq_build, structuralErrors_reverse, Builder.structuralErrors_build]
  rfl

end Templating
