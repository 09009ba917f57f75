import Templating.Proofs.Template.Matching

/-!
# Well-nested templates

A grammar for lists of tokens in which every block is closed in order and no closing directive and
no `@else` is stray. The machine of `Mark.complaints` complains of nothing exactly on these lists
(`complaints_eq_nil_iff`), so a template is well nested exactly when the parser finds no fault of
order in it.
-/

namespace Templating

namespace Token

def Opens (t : Token) (block : BlockKind) : Prop :=
  ∃ kind args, t.kind = .directive kind args ∧
    BlockKind.opened? kind (String.ofList (args.getD [])) = some block

def Closes (t : Token) (block : BlockKind) : Prop :=
  ∃ kind args, t.kind = .directive kind args ∧ BlockKind.closed? kind = some block

def IsElse (t : Token) : Prop :=
  ∃ args, t.kind = .directive .otherwise args

/-- The token has no part in the order of blocks inside a block of the kind `outer`, or outside all
blocks. A section's closing directive has none unless it stands right in a section. -/
def IsPlain (outer : Option BlockKind) (t : Token) : Prop :=
  (∀ block, ¬t.Opens block) ∧ ¬t.IsElse ∧
    ∀ block, t.Closes block → block = .sectionBlock ∧ outer ≠ some .sectionBlock

end Token

/-- Runs of tokens, inside a block of the kind `outer` or outside all blocks, that are well
nested. -/
inductive WellNested : Option BlockKind → List Token → Prop where
  | nil {outer} : WellNested outer []
  | plain {outer t ts} (ht : t.IsPlain outer) (hs : WellNested outer ts) :
      WellNested outer (t :: ts)
  | block {outer t kind body c ts} (ht : t.Opens kind) (hbody : WellNested (some kind) body)
      (hc : c.Closes kind) (hs : WellNested outer ts) :
      WellNested outer (t :: (body ++ c :: ts))
  | branches {outer t body e other c ts} (ht : t.Opens .conditional)
      (hbody : WellNested (some .conditional) body) (he : e.IsElse)
      (hother : WellNested (some .conditional) other) (hc : c.Closes .conditional)
      (hs : WellNested outer ts) :
      WellNested outer (t :: (body ++ e :: (other ++ c :: ts)))

namespace Mark

def top (stack : List Mark) : Option BlockKind :=
  stack.head?.map (·.kind)

theorem step_opens {t : Token} {block : BlockKind} (h : t.Opens block) (stack : List Mark) :
    step stack t = (⟨block, false, t.start, t.stop⟩ :: stack, none) := by
  obtain ⟨kind, args, ht, ho⟩ := h
  simp only [step, ht, stepDirective, ho]

theorem opened?_of_closed? {kind : Directive} {block : BlockKind} (args : String)
    (h : BlockKind.closed? kind = some block) : BlockKind.opened? kind args = none := by
  cases kind <;> first | rfl | cases h

theorem eq_endSection_of_closed? {kind : Directive}
    (h : BlockKind.closed? kind = some .sectionBlock) : kind = .endSection := by
  cases kind <;> first | rfl | cases h

theorem step_closes {t : Token} {mark : Mark} (h : t.Closes mark.kind) (stack : List Mark) :
    step (mark :: stack) t = (stack, none) := by
  obtain ⟨kind, args, ht, hc⟩ := h
  simp only [step, ht, stepDirective, opened?_of_closed? _ hc, hc, close, List.head?_cons,
    Option.any_some, decide_true, if_true, List.tail_cons]

theorem step_else {t : Token} (h : t.IsElse) (start stop : Nat) (stack : List Mark) :
    step (⟨.conditional, false, start, stop⟩ :: stack) t =
      (⟨.conditional, true, start, stop⟩ :: stack, none) := by
  obtain ⟨args, ht⟩ := h
  simp only [step, ht]
  rfl

theorem step_plain {t : Token} {stack : List Mark} (h : t.IsPlain (top stack)) :
    step stack t = (stack, none) := by
  obtain ⟨hopens, helse, hcloses⟩ := h
  cases ht : t.kind with
  | text => simp only [step, ht]
  | interpolation escape content => simp only [step, ht]
  | directive kind args =>
    have ho : BlockKind.opened? kind (String.ofList (args.getD [])) = none :=
      Option.eq_none_iff_forall_ne_some.2 fun block hb => hopens block ⟨kind, args, ht, hb⟩
    have hkind : kind ≠ .otherwise := by
      rintro rfl
      exact helse ⟨args, ht⟩
    cases hc : BlockKind.closed? kind with
    | none => simp only [step, ht, stepDirective, ho, hc, hkind, if_false]
    | some block =>
      obtain ⟨rfl, htop⟩ := hcloses block ⟨kind, args, ht, hc⟩
      have hstray : stray kind t = none := if_pos (eq_endSection_of_closed? hc)
      have hhead : stack.head?.any (·.kind = .sectionBlock) = false := by
        cases stack with
        | nil => rfl
        | cons mark stack => simpa [top] using htop
      simp only [step, ht, stepDirective, ho, hc, close, hhead, Bool.false_eq_true, if_false, hstray]

theorem stray_eq_none {kind : Directive} {t : Token} (h : stray kind t = none) :
    kind = .endSection := by
  unfold stray at h
  split at h
  · assumption
  · cases h

theorem cases_of_quiet {t : Token} {stack : List Mark} (h : (step stack t).2 = none) :
    (∃ block, t.Opens block) ∨ (∃ mark outer, stack = mark :: outer ∧ t.Closes mark.kind) ∨
      (t.IsElse ∧ ∃ start stop outer, stack = ⟨.conditional, false, start, stop⟩ :: outer) ∨
      t.IsPlain (top stack) := by
  by_cases hopens : ∃ block, t.Opens block
  · exact .inl hopens
  by_cases helse : t.IsElse
  · obtain ⟨args, ht⟩ := helse
    have hstep : step stack t = switch stack t := by
      simp only [step, ht]
      rfl
    rw [hstep] at h
    unfold switch at h
    split at h
    · exact .inr (.inr (.inl ⟨⟨args, ht⟩, _, _, _, rfl⟩))
    · cases h
    · have hstray : stray .otherwise t = none := h
      cases stray_eq_none hstray
  by_cases hcloses : ∃ block, t.Closes block ∧ top stack = some block
  · obtain ⟨block, hc, htop⟩ := hcloses
    cases stack with
    | nil => cases htop
    | cons mark outer =>
      obtain rfl : mark.kind = block := Option.some.inj htop
      exact .inr (.inl ⟨mark, outer, rfl, hc⟩)
  · refine .inr (.inr (.inr ⟨fun block hb => hopens ⟨block, hb⟩, helse, fun block hb => ?_⟩))
    have hne : top stack ≠ some block := fun htop => hcloses ⟨block, hb, htop⟩
    obtain ⟨kind, args, ht, hc⟩ := hb
    have hhead : stack.head?.any (·.kind = block) = false := by
      cases stack with
      | nil => rfl
      | cons mark stack => simpa [top] using hne
    simp only [step, ht, stepDirective, opened?_of_closed? _ hc, hc, close, hhead,
      Bool.false_eq_true, if_false] at h
    obtain rfl := stray_eq_none h
    cases hc
    exact ⟨rfl, hne⟩

theorem complaints_cons {stack outer : List Mark} {t : Token} (h : step stack t = (outer, none))
    (ts : List Token) : complaints stack (t :: ts) = complaints outer ts := by
  rw [complaints, h]
  rfl

/-- The machine passes over a well-nested run without a complaint, and leaves the stack as it was. -/
theorem complaints_append {outer : Option BlockKind} {body : List Token}
    (h : WellNested outer body) {stack : List Mark} (htop : top stack = outer) (ts : List Token) :
    complaints stack (body ++ ts) = complaints stack ts := by
  induction h generalizing stack ts with
  | nil => rfl
  | plain ht _ ih =>
    subst htop
    rw [List.cons_append, complaints_cons (step_plain ht), ih rfl]
  | block ht _ hc _ ihbody ih =>
    rw [List.cons_append, complaints_cons (step_opens ht stack), List.append_assoc, ihbody rfl,
      List.cons_append, complaints_cons (step_closes hc stack), ih htop]
  | branches ht _ he _ hc _ ihbody ihother ih =>
    rw [List.cons_append, complaints_cons (step_opens ht stack), List.append_assoc, ihbody rfl,
      List.cons_append, complaints_cons (step_else he _ _ stack), List.append_assoc, ihother rfl,
      List.cons_append, complaints_cons (step_closes hc stack), ih htop]

/-- The tokens `ts` end the block of the mark in order, and `rest` is what follows it. -/
inductive Ends (mark : Mark) (rest : List Token) : List Token → Prop where
  | closed {body c} (hbody : WellNested (some mark.kind) body) (hc : c.Closes mark.kind) :
      Ends mark rest (body ++ c :: rest)
  | switched {body e other c} (hk : mark.kind = .conditional) (hs : mark.switched = false)
      (hbody : WellNested (some mark.kind) body) (he : e.IsElse)
      (hother : WellNested (some .conditional) other) (hc : c.Closes .conditional) :
      Ends mark rest (body ++ e :: (other ++ c :: rest))

def EndsAll : List Mark → List Token → Prop
  | [], ts => WellNested none ts
  | mark :: stack, ts => ∃ rest, Ends mark rest ts ∧ EndsAll stack rest

theorem EndsAll.append (part : List Token) {stack : List Mark} {ts : List Token}
    (hpart : ∀ {body}, WellNested (top stack) body → WellNested (top stack) (part ++ body))
    (h : EndsAll stack ts) : EndsAll stack (part ++ ts) := by
  cases stack with
  | nil => exact hpart h
  | cons mark stack =>
    obtain ⟨rest, hends, hrest⟩ := h
    refine ⟨rest, ?_, hrest⟩
    cases hends with
    | closed hbody hc =>
      rw [← List.append_assoc]
      exact .closed (hpart hbody) hc
    | switched hk hs hbody he hother hc =>
      rw [← List.append_assoc]
      exact .switched hk hs (hpart hbody) he hother hc

theorem EndsAll.block {t : Token} {block : BlockKind} {stack : List Mark} {rest ts : List Token}
    (ht : t.Opens block) (hends : Ends ⟨block, false, t.start, t.stop⟩ rest ts)
    (h : EndsAll stack rest) : EndsAll stack (t :: ts) := by
  cases hends with
  | @closed body c hbody hc =>
    have hpart : t :: (body ++ c :: rest) = (t :: (body ++ [c])) ++ rest := by simp
    rw [hpart]
    refine h.append _ fun {after} hafter => ?_
    simpa using WellNested.block ht hbody hc hafter
  | @switched body e other c hk _ hbody he hother hc =>
    obtain rfl : block = .conditional := hk
    have hpart : t :: (body ++ e :: (other ++ c :: rest)) =
        (t :: (body ++ e :: (other ++ [c]))) ++ rest := by simp
    rw [hpart]
    refine h.append _ fun {after} hafter => ?_
    simpa using WellNested.branches ht hbody he hother hc hafter

/-- When the machine has no complaint, the tokens end all open blocks in order. -/
theorem endsAll_of_complaints_eq_nil {stack : List Mark} {ts : List Token}
    (h : complaints stack ts = []) : EndsAll stack ts := by
  induction ts generalizing stack with
  | nil =>
    obtain rfl := List.map_eq_nil_iff.1 h
    exact .nil
  | cons t ts ih =>
    rw [complaints, List.append_eq_nil_iff, Option.toList_eq_nil_iff] at h
    obtain ⟨hquiet, hrest⟩ := h
    have hends := ih hrest
    rcases cases_of_quiet hquiet with ⟨block, ho⟩ | ⟨mark, outer, rfl, hc⟩ |
      ⟨he, start, stop, outer, rfl⟩ | hp
    · rw [step_opens ho] at hends
      obtain ⟨rest, hblock, hafter⟩ := hends
      exact .block ho hblock hafter
    · rw [step_closes hc] at hends
      exact ⟨ts, .closed .nil hc, hends⟩
    · rw [step_else he] at hends
      obtain ⟨rest, hbranch, hafter⟩ := hends
      refine ⟨rest, ?_, hafter⟩
      cases hbranch with
      | closed hbody hc => exact .switched rfl rfl .nil he hbody hc
      | switched _ hs => cases hs
    · rw [step_plain hp] at hends
      exact hends.append [t] fun hbody => .plain hp hbody

/-- The machine has no complaint about the well-nested lists of tokens, and about no others. -/
theorem complaints_eq_nil_iff {ts : List Token} : complaints [] ts = [] ↔ WellNested none ts := by
  constructor
  · exact endsAll_of_complaints_eq_nil
  · intro h
    have hquiet : complaints [] (ts ++ []) = complaints [] [] := complaints_append h rfl []
    rw [List.append_nil] at hquiet
    rw [hquiet]
    rfl

end Mark

/-- The faults of order that are reported for a template are the complaints of the machine about its
tokens, at the same places and in the same order; there are none exactly when every block is closed
in order and no closing directive and no `@else` is stray. -/
theorem structuralErrors_parseTemplate (m : Markers) (text : String) :
    structuralErrors (parseTemplate m text).errors =
        (Mark.complaints [] (Token.tokens m text.toList)).map
          (Complaint.locate (Source.ofChars text.toList)) ∧
      (structuralErrors (parseTemplate m text).errors = [] ↔
        WellNested none (Token.tokens m text.toList)) := by
  have hearly : structuralErrors ((Token.errors m text.toList).map fun e =>
      { fault := e.fault.toFault
        loc := (Source.ofChars text.toList).location e.start e.stop : TemplateError }) = [] := by
    refine List.filter_eq_nil_iff.2 fun e he => ?_
    obtain ⟨⟨fault, start, stop⟩, -, rfl⟩ := List.mem_map.1 he
    cases fault <;> simp [TokenFault.toFault, TemplateFault.isStructural]
  have hall : structuralErrors (parseTemplate m text).errors =
      structuralErrors (parseTokens (Source.ofChars text.toList)
        (Token.tokens m text.toList)).2 := by
    rw [parseTemplate, structuralErrors_append, hearly]
    rfl
  rw [hall, structuralErrors_parseTokens, List.map_eq_nil_iff, Mark.complaints_eq_nil_iff]
  exact ⟨rfl, Iff.rfl⟩

end Templating
