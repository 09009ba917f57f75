import Templating.Proofs.Template.LineColumn
import Templating.Proofs.Template.Partition
import Templating.Proofs.Template.Splice
import Templating.Render.Page

/-!
# Recovery from unclosed error blocks

The parser undoes an error block that is never closed: its nodes join the run around it. While the
block was open, though, a directive right in it could not reach the block around it, so a closing
directive of that block stayed as text there. The tree is therefore that of the template without the
opening directive in which these directives are kept from ending the block around
(`recovery_unclosed_error`), and it is that of the template without the opening directive where there
are none.
-/

namespace Templating

def Token.extent (t : Token) : Nat × Nat :=
  (t.start, t.stop)

def Complaint.extent (c : Complaint) : Nat × Nat :=
  (c.start, c.stop)

namespace Mark

def extent (mark : Mark) : Nat × Nat :=
  (mark.start, mark.stop)

/-- Blocks further out do not matter to a token that does not end the innermost of them. -/
theorem step_append {inner outer : List Mark} {t : Token}
    (h : inner = [] → (top outer).any t.ends = false) :
    step (inner ++ outer) t = ((step inner t).1 ++ outer, (step inner t).2) := by
  cases ht : t.kind with
  | text => simp only [step, ht]
  | interpolation escape content => simp only [step, ht]
  | directive kind args =>
    simp only [step, ht, stepDirective]
    cases ho : BlockKind.opened? kind (String.ofList (args.getD [])) with
    | some block => rfl
    | none =>
      cases hc : BlockKind.closed? kind with
      | some block =>
        cases inner with
        | cons mark inner =>
          by_cases hmark : mark.kind = block <;> simp [close, hmark]
        | nil =>
          have hhead : outer.head?.any (·.kind = block) = false := by
            cases outer with
            | nil => rfl
            | cons mark outer =>
              have hends : t.ends mark.kind = false := h rfl
              rw [List.head?_cons, Option.any_some, decide_eq_false_iff_not]
              rintro rfl
              simp [Token.ends, ht, hc] at hends
          simp [close, hhead]
      | none =>
        by_cases hkind : kind = .otherwise
        · subst hkind
          cases inner with
          | cons mark inner =>
            obtain ⟨block, switched, start, stop⟩ := mark
            cases block <;> cases switched <;> rfl
          | nil =>
            cases outer with
            | nil => rfl
            | cons mark outer =>
              have hends : t.ends mark.kind = false := h rfl
              obtain ⟨block, switched, start, stop⟩ := mark
              cases block <;> first | rfl | simp [Token.ends, ht] at hends
        · simp only [hkind, if_false]

theorem place_stray {kind : Directive} {t : Token} {c : Complaint} (h : c ∈ stray kind t) :
    c.start = t.start ∧ c.stop = t.stop := by
  unfold stray at h
  split at h
  · cases h
  · cases h
    exact ⟨rfl, rfl⟩

theorem place_complaint {stack : List Mark} {t : Token} {c : Complaint}
    (h : c ∈ (step stack t).2) : c.start = t.start ∧ c.stop = t.stop := by
  cases ht : t.kind with
  | text =>
    simp only [step, ht] at h
    cases h
  | interpolation escape content =>
    simp only [step, ht] at h
    cases h
  | directive kind args =>
    simp only [step, ht, stepDirective] at h
    split at h
    · cases h
    · unfold close at h
      split at h
      · cases h
      · exact place_stray h
    · split at h
      · unfold switch at h
        split at h
        · cases h
        · cases h
          exact ⟨rfl, rfl⟩
        · exact place_stray (show c ∈ stray .otherwise t from h)
      · cases h

theorem extent_complaint {stack : List Mark} {t : Token} {c : Complaint}
    (h : c ∈ (step stack t).2) : c.extent = t.extent :=
  Prod.ext (place_complaint h).1 (place_complaint h).2

theorem extents_step (stack : List Mark) (t : Token) :
    (step stack t).1.map extent ⊆ t.extent :: stack.map extent := by
  have hstack : stack.map extent ⊆ t.extent :: stack.map extent := List.subset_cons_self _ _
  cases ht : t.kind with
  | text => simpa only [step, ht] using hstack
  | interpolation escape content => simpa only [step, ht] using hstack
  | directive kind args =>
    simp only [step, ht, stepDirective]
    split
    · exact List.Subset.refl _
    · unfold close
      split
      · rw [List.map_tail]
        exact List.Subset.trans (List.tail_subset _) hstack
      · exact hstack
    · split
      · unfold switch
        split <;> exact hstack
      · exact hstack

theorem extent_of_step {stack : List Mark} {t : Token} {ts : List Token} {x : Nat × Nat}
    (h : x ∈ (step stack t).1.map extent ∨ x ∈ ts.map Token.extent) :
    x ∈ stack.map extent ∨ x ∈ (t :: ts).map Token.extent := by
  rw [List.map_cons]
  rcases h with hstack | hts
  · rcases List.mem_cons.1 (extents_step stack t hstack) with rfl | hmem
    · exact .inr List.mem_cons_self
    · exact .inl hmem
  · exact .inr (List.mem_cons_of_mem _ hts)

theorem extent_after {stack : List Mark} {ts : List Token} {mark : Mark}
    (h : mark ∈ after stack ts) :
    mark.extent ∈ stack.map extent ∨ mark.extent ∈ ts.map Token.extent := by
  induction ts generalizing stack with
  | nil => exact .inl (List.mem_map_of_mem h)
  | cons t ts ih => exact extent_of_step (ih h)

theorem extent_complaints {stack : List Mark} {ts : List Token} {c : Complaint}
    (h : c ∈ complaints stack ts) :
    c.extent ∈ stack.map extent ∨ c.extent ∈ ts.map Token.extent := by
  induction ts generalizing stack with
  | nil =>
    obtain ⟨mark, hmark, rfl⟩ := List.mem_map.1 h
    exact .inl (List.mem_map_of_mem hmark)
  | cons t ts ih =>
    rcases List.mem_append.1 h with hstep | hrest
    · exact .inr (extent_complaint (Option.mem_toList.1 hstep) ▸ List.mem_cons_self)
    · exact extent_of_step (ih hrest)

/-- A complaint about what comes before is where some token before is. -/
theorem mem_complaints_append {stack : List Mark} {pre ts : List Token} {c : Complaint}
    (h : c ∈ complaints stack (pre ++ ts)) :
    c.extent ∈ pre.map Token.extent ∨ c ∈ complaints (after stack pre) ts := by
  induction pre generalizing stack with
  | nil => exact .inr h
  | cons t pre ih =>
    rcases List.mem_append.1 h with hstep | hrest
    · exact .inl (extent_complaint (Option.mem_toList.1 hstep) ▸ List.mem_cons_self)
    · exact (ih hrest).imp_left (List.mem_cons_of_mem _)

/-- An error block that is complained of as unclosed is ended by no token behind it. -/
theorem leavesOpen_of_unclosed {mark : Mark} (inner : List Mark) {outer : List Mark}
    {ts : List Token} (hkind : mark.kind = .errorBlock)
    (h : mark.unclosed ∈ complaints (inner ++ mark :: outer) ts)
    (houter : mark.extent ∉ outer.map extent) (hts : mark.extent ∉ ts.map Token.extent) :
    Token.LeavesOpen (some .errorBlock) inner ts := by
  induction ts generalizing inner with
  | nil => trivial
  | cons t ts ih =>
    rw [List.map_cons, List.mem_cons, not_or] at hts
    have hrest : mark.unclosed ∈ complaints (step (inner ++ mark :: outer) t).1 ts := by
      refine (List.mem_append.1 h).resolve_left fun hstep => ?_
      exact hts.1 (extent_complaint (Option.mem_toList.1 hstep))
    have hends : inner = [] → t.ends .errorBlock = false := by
      rintro rfl
      rw [← Bool.not_eq_true]
      intro hends
      have hcloses : t.Closes mark.kind := by
        unfold Token.ends at hends
        split at hends
        · rename_i kind args ht
          exact ⟨kind, args, ht, by simpa [hkind] using hends⟩
        · cases hends
      -- Once the block is closed, no mark is left that begins where it did.
      rw [List.nil_append, step_closes hcloses] at hrest
      exact (extent_complaints hrest).elim houter hts.2
    refine ⟨hends, ih _ ?_ hts.2⟩
    rw [step_append fun hnil => ?_] at hrest
    · exact hrest
    · rw [top, List.head?_cons, Option.map_some, Option.any_some, hkind]
      exact hends hnil

end Mark

namespace Token

theorem pairwise_start_tokens (m : Markers) (cs : List Char) :
    (tokens m cs).Pairwise fun t u => t.start < u.start := by
  have hcovers := covers_tokens m cs
  refine hcovers.pairwise.imp_of_mem fun ht _ hle => ?_
  exact Nat.lt_of_lt_of_le (start_lt_stop (hcovers.standsAt ht).1) hle

theorem start_ne {m : Markers} {cs : List Char} {pre post : List Token} {t : Token}
    (htokens : tokens m cs = pre ++ t :: post) : ∀ u ∈ pre ++ post, u.start ≠ t.start := by
  have hstarts := pairwise_start_tokens m cs
  rw [htokens, List.pairwise_append, List.pairwise_cons] at hstarts
  obtain ⟨-, ⟨hpost, -⟩, hpre⟩ := hstarts
  intro u hu
  rcases List.mem_append.1 hu with hmem | hmem
  · exact Nat.ne_of_lt (hpre u hmem t List.mem_cons_self)
  · exact (Nat.ne_of_lt (hpost u hmem)).symm

theorem leavesOpen_of_tokens {m : Markers} {cs : List Char} {pre post : List Token} {t : Token}
    {args : Option (List Char)} (htokens : tokens m cs = pre ++ t :: post)
    (ht : t.kind = .directive .openError args)
    (h : ⟨.unclosedBlock .openError, t.start, t.stop⟩ ∈ Mark.complaints [] (tokens m cs)) :
    LeavesOpen (some .errorBlock) [] post := by
  have hother : t.extent ∉ (pre ++ post).map extent := by
    intro hmem
    obtain ⟨u, hu, hextent⟩ := List.mem_map.1 hmem
    exact start_ne htokens u hu (congrArg Prod.fst hextent)
  rw [List.map_append, List.mem_append, not_or] at hother
  have hopens : t.Opens .errorBlock := ⟨_, _, ht, rfl⟩
  rw [htokens] at h
  have hrest := (Mark.mem_complaints_append h).resolve_left hother.1
  rw [Mark.complaints_cons (Mark.step_opens hopens _)] at hrest
  refine Mark.leavesOpen_of_unclosed [] rfl hrest ?_ hother.2
  intro hmem
  obtain ⟨mark, hmark, hextent⟩ := List.mem_map.1 hmem
  rcases Mark.extent_after hmark with hnil | hmem
  · cases hnil
  · rw [hextent] at hmem
    exact hother.1 hmem

/-! ## What is reported of a token -/

def location (source : Source) (t : Token) : Location :=
  source.location t.start t.stop

/-- In a template of less than four gibibytes tokens have different locations. -/
theorem location_ne {m : Markers} {cs : List Char} (hsize : Text.byteLength cs < 4294967296)
    {pre post : List Token} {t : Token} (htokens : tokens m cs = pre ++ t :: post) :
    ∀ u ∈ pre ++ post, u.location (Source.ofChars cs) ≠ t.location (Source.ofChars cs) := by
  have hstands := stands_tokens m cs
  rw [htokens] at hstands
  have ht := hstands t (List.mem_append_right _ List.mem_cons_self)
  intro u hu hlocation
  have hu' := hstands u (by simp only [List.mem_append, List.mem_cons] at hu ⊢; tauto)
  exact start_ne htokens u hu (Source.location_inj hsize hlocation hu'.start_le hu'.stop_le
    ht.start_le ht.stop_le).1

/-- What is reported at the location of one token is the complaint about this token. -/
theorem mem_complaints_of_reported {m : Markers} {text : String} {pre post : List Token} {t : Token}
    {fault : TemplateFault} (htokens : tokens m text.toList = pre ++ t :: post)
    (hown : ∀ u ∈ pre ++ post, u.location (Source.ofChars text.toList) ≠
      t.location (Source.ofChars text.toList))
    (hfault : fault.isStructural = true)
    (h : ⟨fault, t.location (Source.ofChars text.toList)⟩ ∈ (parseTemplate m text).errors) :
    ⟨fault, t.start, t.stop⟩ ∈ Mark.complaints [] (tokens m text.toList) := by
  have hstructural : ⟨fault, t.location (Source.ofChars text.toList)⟩ ∈
      structuralErrors (parseTemplate m text).errors := List.mem_filter.2 ⟨h, hfault⟩
  rw [(structuralErrors_parseTemplate m text).1, List.mem_map] at hstructural
  obtain ⟨⟨fault', start, stop⟩, hc, hlocate⟩ := hstructural
  injection hlocate with hkind hlocation
  obtain ⟨u, hu, hextent⟩ := List.mem_map.1 ((Mark.extent_complaints hc).resolve_left List.not_mem_nil)
  injection hextent with hstart hstop
  subst hkind hstart hstop
  have hut : u = t := by
    rw [htokens, List.mem_append, List.mem_cons, or_left_comm, ← List.mem_append] at hu
    exact hu.resolve_right fun hother => hown u hother hlocation
  exact hut ▸ hc

end Token

def Renderer.renderTree (r : Renderer) (root : Root) : Render String :=
  r.renderRoot (r.renderInclude r.options.maxDepth) (r.renderPage .layout r.options.maxDepth)
    Frame.outermost root

/-- Recovery from an error block that is reported as never closed, at the opening directive `t` of a
template, which the report tells by its location: in less than four gibibytes no other token has it
(`Token.location_ne`). The tree is that of the template without this directive, where a directive
that stands right in the error block, and would without it end the block around, is kept from doing
so. If there is none, a lenient renderer gives the template the text that it gives to the tree
without the directive. -/
theorem recovery_unclosed_error (r : Renderer) (text : String) {pre post : List Token} {t : Token}
    {args : Option (List Char)}
    (htokens : Token.tokens r.options.markers text.toList = pre ++ t :: post)
    (ht : t.kind = .directive .openError args)
    (hunclosed : ⟨.unclosedBlock .openError, t.location (Source.ofChars text.toList)⟩ ∈
      (parseTemplate r.options.markers text).errors)
    (hown : ∀ u ∈ pre ++ post, u.location (Source.ofChars text.toList) ≠
      t.location (Source.ofChars text.toList)) :
    let source := Source.ofChars text.toList
    let root := (parseTemplate r.options.markers text).root
    let around := Mark.top (Mark.after [] pre)
    root.children = (parseTokens source (pre ++ Token.keep around [] post)).1 ∧
      (Token.LeavesOpen around [] post →
        root.children = (parseTokens source (pre ++ post)).1 ∧
          (r.options.strict = false →
            r.renderSource text =
              r.renderTree { root with children := (parseTokens source (pre ++ post)).1 })) := by
  intro source root around
  have hroot : root.children = (parseTokens source (pre ++ t :: post)).1 := by
    rw [← htokens]
    rfl
  have hcomplaint := Token.mem_complaints_of_reported htokens hown rfl hunclosed
  have hkeep := Builder.nodes_unclosed source pre ht
    (Token.leavesOpen_of_tokens htokens ht hcomplaint)
  refine ⟨hroot.trans hkeep, fun hopen => ?_⟩
  rw [Token.keep_eq_self hopen] at hkeep
  have hchildren := hroot.trans hkeep
  refine ⟨hchildren, fun hlenient => ?_⟩
  have hcheck : r.check Renderer.inlineName (parseTemplate r.options.markers text) =
      .ok (parseTemplate r.options.markers text) := by
    simp [Renderer.check, hlenient]
  rw [← hchildren, Renderer.renderSource, hcheck]
  rfl

/-- A template with an unclosed error block in a loop that is not closed either. -/
def openLoop : String := "@foreach([1, 2] as $x)a@error('f')@if($x)b@endif@endif"

def openLoopTokens : List Token := Token.tokens Markers.standard openLoop.toList

def openLoopError : Token :=
  ⟨23, "@error('f')".toList, .directive .openError (some "'f'".toList)⟩

theorem recovery_unclosed_error_loop :
    let source := Source.ofChars openLoop.toList
    let parsed := parseTemplate Markers.standard openLoop
    openLoopTokens = openLoopTokens.take 2 ++ openLoopError :: openLoopTokens.drop 3 ∧
      ⟨.unclosedBlock .openError, openLoopError.location source⟩ ∈ parsed.errors ∧
      (∀ u ∈ openLoopTokens.take 2 ++ openLoopTokens.drop 3,
        u.location source ≠ openLoopError.location source) ∧
      Mark.top (Mark.after [] (openLoopTokens.take 2)) = some .loop ∧
      Token.LeavesOpen (some .loop) [] (openLoopTokens.drop 3) ∧
      (Renderer.ofSources []).renderSource openLoop =
        (Renderer.ofSources []).renderTree
          { parsed.root with
            children := (parseTokens source (openLoopTokens.take 2 ++ openLoopTokens.drop 3)).1 } := by
  intro source parsed
  have htokens : openLoopTokens =
      openLoopTokens.take 2 ++ openLoopError :: openLoopTokens.drop 3 := by
    cbv
  have hunclosed : ⟨.unclosedBlock .openError, openLoopError.location source⟩ ∈ parsed.errors := by
    have herrors : parsed.errors =
        [⟨.unexpectedCloser .endIf, ⟨⟨48, 1, 49⟩, ⟨54, 1, 55⟩⟩⟩,
          ⟨.unclosedBlock .openError, ⟨⟨23, 1, 24⟩, ⟨34, 1, 35⟩⟩⟩,
          ⟨.unclosedBlock .openForeach, ⟨⟨0, 1, 1⟩, ⟨22, 1, 23⟩⟩⟩] := by
      cbv
    have hlocation : openLoopError.location source = ⟨⟨23, 1, 24⟩, ⟨34, 1, 35⟩⟩ := by cbv
    rw [herrors, hlocation]
    exact List.mem_cons_of_mem _ List.mem_cons_self
  have hsize : Text.byteLength openLoop.toList < 4294967296 := by decide
  have hown := Token.location_ne hsize htokens
  have haround : Mark.top (Mark.after [] (openLoopTokens.take 2)) = some .loop := by cbv
  have hopen : Token.LeavesOpen (some .loop) [] (openLoopTokens.drop 3) := by
    have hrest : openLoopTokens.drop 3 =
        [⟨34, "@if($x)".toList, .directive .openIf (some "$x".toList)⟩, ⟨41, ['b'], .text⟩,
          ⟨42, "@endif".toList, .directive .endIf none⟩,
          ⟨48, "@endif".toList, .directive .endIf none⟩] := by
      cbv
    rw [hrest]
    exact ⟨fun _ => rfl, fun _ => rfl, fun _ => rfl, fun _ => rfl, trivial⟩
  have hlaw := recovery_unclosed_error (.ofSources []) openLoop htokens rfl hunclosed hown
  exact ⟨htokens, hunclosed, hown, haround, hopen, (hlaw.2 (haround ▸ hopen)).2 rfl⟩

/-- A template with an unclosed error block in a condition that is closed behind it. -/
def openBranch : String := "@if(true)a@error('f')b@endif"

def openBranchTokens : List Token := Token.tokens Markers.standard openBranch.toList

def openBranchError : Token :=
  ⟨10, "@error('f')".toList, .directive .openError (some "'f'".toList)⟩

/-- The opening directive of an unclosed error block is not always as good as absent: the closing
directive of the block around it stays as text. -/
theorem not_recovery_as_absent :
    let source := Source.ofChars openBranch.toList
    let parsed := parseTemplate Markers.standard openBranch
    openBranchTokens = openBranchTokens.take 2 ++ openBranchError :: openBranchTokens.drop 3 ∧
      ⟨.unclosedBlock .openError, openBranchError.location source⟩ ∈ parsed.errors ∧
      ((Renderer.ofSources []).renderSource openBranch ⟨Context.empty, [], []⟩).1 = .ok "ab@endif" ∧
      ((Renderer.ofSources []).renderTree
        { parsed.root with
          children := (parseTokens source
            (openBranchTokens.take 2 ++ openBranchTokens.drop 3)).1 }
        ⟨Context.empty, [], []⟩).1 = .ok "ab" := by
  intro source parsed
  have herrors : parsed.errors =
      [⟨.unexpectedCloser .endIf, ⟨⟨22, 1, 23⟩, ⟨28, 1, 29⟩⟩⟩,
        ⟨.unclosedBlock .openError, ⟨⟨10, 1, 11⟩, ⟨21, 1, 22⟩⟩⟩,
        ⟨.unclosedBlock .openIf, ⟨⟨0, 1, 1⟩, ⟨9, 1, 10⟩⟩⟩] := by
    cbv
  have hlocation : openBranchError.location source = ⟨⟨10, 1, 11⟩, ⟨21, 1, 22⟩⟩ := by cbv
  refine ⟨by cbv, ?_, by cbv, by cbv⟩
  rw [herrors, hlocation]
  exact List.mem_cons_of_mem _ List.mem_cons_self

end Templating
