import Templating.Proofs.Template.Nesting

/-!
# Reading a run behind another one

The tokens behind an opening directive are read into a run of their own. When that run joins the run
around it in the end (`Draft.splice`), the nodes are those that come from reading the tokens behind
the run around it at once (`Builder.LaidOn`), as long as no token ends a block further out
(`Token.LeavesOpen`). So an error block that is never closed gives what its tokens give without it,
but for the tokens right in it that would end the block around: these stay as text
(`Builder.nodes_unclosed`).
-/

namespace Templating

namespace Draft

/-- A run behind another one. Text that touches where they meet is joined. -/
def splice (ns before : List Node) : List Node :=
  ns.foldr consNode before

theorem consText_consText {last content : String} {lastLoc loc : Location}
    (h : lastLoc.stop.offset = loc.start.offset) (ns : List Node) :
    consText content loc (consText last lastLoc ns) =
      consText (last ++ content) ⟨lastLoc.start, loc.stop⟩ ns := by
  cases ns with
  | nil => simp [consText, h]
  | cons n ns =>
    cases n with
    | text first firstLoc =>
      by_cases hfirst : firstLoc.stop.offset = lastLoc.start.offset
      · simp [consText, h, hfirst, String.append_assoc]
      · simp [consText, h, hfirst]
    | _ => simp [consText, h]

theorem splice_consNode (n : Node) (ns before : List Node) :
    splice (consNode n ns) before = consNode n (splice ns before) := by
  cases n with
  | text content loc =>
    cases ns with
    | nil => rfl
    | cons last ns =>
      cases last with
      | text last lastLoc =>
        by_cases htouch : lastLoc.stop.offset = loc.start.offset
        · simp only [consNode, consText, htouch, if_true]
          exact (consText_consText htouch _).symm
        · simp only [consNode, consText, htouch, if_false]
          rfl
      | _ => rfl
  | _ => rfl

theorem splice_splice (ns mid before : List Node) :
    splice (splice ns mid) before = splice ns (splice mid before) := by
  induction ns with
  | nil => rfl
  | cons n ns ih =>
    calc splice (consNode n (splice ns mid)) before
        = consNode n (splice (splice ns mid) before) := splice_consNode n _ before
      _ = consNode n (splice ns (splice mid before)) := by rw [ih]

theorem splice_node (opened : Opened) (body : List Node) (inner : List Char) (loc : Location)
    (before : List Node) :
    splice [OpenBlock.node opened body inner loc] before =
      OpenBlock.node opened body inner loc :: before := by
  cases opened with
  | conditional condition consequent => cases consequent <;> rfl
  | _ => rfl

/-- What a directive adds to a run, and what it opens, does not depend on the run. -/
theorem enter_eq (source : Source) (d : Draft) (kind : Directive) (args : String) (t : Token) :
    (d.enter source kind args t).1.nodes =
        splice (empty.enter source kind args t).1.nodes d.nodes ∧
      (d.enter source kind args t).2 = (empty.enter source kind args t).2 := by
  cases kind with
  | openForeach =>
    simp only [enter, enterLoop]
    split <;> exact ⟨rfl, rfl⟩
  | openSection =>
    simp only [enter, enterSection]
    split
    · exact ⟨rfl, rfl⟩
    · split <;> exact ⟨rfl, rfl⟩
  | extendsLayout =>
    refine ⟨?_, rfl⟩
    simp only [enter, pushLayout]
    split <;> rfl
  | yieldSection =>
    refine ⟨?_, rfl⟩
    simp only [enter, yieldNode]
    split <;> rfl
  | _ => exact ⟨rfl, rfl⟩

end Draft

/-- What a block that is never closed leaves in the run that holds it. -/
def OpenBlock.remains (source : Source) (block : OpenBlock) (nodes : List Node) : List Node :=
  match block.opened with
  | .errorBlock _ => nodes
  | opened => [node opened nodes.reverse [] (source.location block.start source.length)]

theorem OpenBlock.nodes_abandon (source : Source) (block : OpenBlock) (d : Draft) :
    (block.abandon source d).nodes =
      Draft.splice (block.remains source d.nodes) block.before := by
  obtain ⟨opened, start, stop, before⟩ := block
  cases opened with
  | errorBlock field => rfl
  | _ => exact (Draft.splice_node _ _ _ _ _).symm

namespace Mark

def after (stack : List Mark) (ts : List Token) : List Mark :=
  ts.foldl (fun stack t => (step stack t).1) stack

end Mark

namespace Token

def ends (t : Token) (block : BlockKind) : Bool :=
  match t.kind with
  | .directive kind _ =>
    BlockKind.closed? kind = some block || (kind = .otherwise && block = .conditional)
  | _ => false

/-- What is left of a token that may not end the block of the kind `around`: it stays as text, apart
from the closing directive of a section. -/
def kept (around : Option BlockKind) (t : Token) : List Token :=
  if around.any t.ends then
    if around = some .sectionBlock then [] else [{ t with kind := .text }]
  else [t]

/-- Tokens that may not end the block of the kind `around` where the blocks of `inner`, and all
blocks that were opened since, are closed. -/
def keep (around : Option BlockKind) : List Mark → List Token → List Token
  | _, [] => []
  | inner, t :: ts =>
    (if inner.isEmpty then t.kept around else [t]) ++ keep around (Mark.step inner t).1 ts

/-- Where the blocks of `inner`, and all blocks that were opened since, are closed, no token ends the
block of the kind `around`. -/
def LeavesOpen (around : Option BlockKind) : List Mark → List Token → Prop
  | _, [] => True
  | inner, t :: ts =>
    (inner = [] → around.any t.ends = false) ∧ LeavesOpen around (Mark.step inner t).1 ts

theorem ends_iff {t : Token} {kind : Directive} {args : Option (List Char)}
    (ht : t.kind = .directive kind args) (opened : Opened) :
    t.ends opened.kind = true ↔ kind ∈ opened.stops := by
  simp [ends, ht, Opened.mem_stops_iff]

/-- A directive that could end a block stays as text where it ends none, apart from the closing
directive of a section. -/
theorem enter_of_ends {t : Token} {block : BlockKind} (h : t.ends block = true) (source : Source) :
    ∃ kind args, t.kind = .directive kind args ∧
      ∀ (d : Draft) (args : String), d.enter source kind args t =
        (if block = .sectionBlock then d else d.stray source kind t, none) := by
  unfold ends at h
  split at h
  · rename_i kind args ht
    refine ⟨kind, args, ht, fun d args => ?_⟩
    cases kind <;> cases block <;> first | rfl | cases h
  · cases h

variable {around : Option BlockKind}

theorem keep_eq_self {inner : List Mark} {ts : List Token} (h : LeavesOpen around inner ts) :
    keep around inner ts = ts := by
  induction ts generalizing inner with
  | nil => rfl
  | cons t ts ih =>
    obtain ⟨ht, hts⟩ := h
    rw [keep, ih hts]
    split
    · rename_i hinner
      simp [kept, ht (List.isEmpty_iff.1 hinner)]
    · rfl

theorem step_nil_of_ends {t : Token} {block : BlockKind} (h : t.ends block = true) :
    (Mark.step [] t).1 = [] := by
  cases ht : t.kind with
  | text => simp [ends, ht] at h
  | interpolation escape content => simp [ends, ht] at h
  | directive kind args =>
    simp only [ends, ht] at h
    simp only [Mark.step, ht]
    cases kind <;> first | rfl | cases h

theorem leavesOpen_keep (around : Option BlockKind) (inner : List Mark) (ts : List Token) :
    LeavesOpen around inner (keep around inner ts) := by
  induction ts generalizing inner with
  | nil => trivial
  | cons t ts ih =>
    have hrest := ih (Mark.step inner t).1
    rw [keep]
    split
    · rename_i hinner
      obtain rfl := List.isEmpty_iff.1 hinner
      cases hends : around.any t.ends with
      | false =>
        simp only [kept, hends, Bool.false_eq_true, if_false]
        exact ⟨fun _ => hends, hrest⟩
      | true =>
        have hstep : (Mark.step [] t).1 = [] := by
          cases around with
          | none => cases hends
          | some block => exact step_nil_of_ends hends
        rw [hstep] at hrest ⊢
        simp only [kept, hends, if_true]
        split
        · exact hrest
        · exact ⟨fun _ => by cases around <;> rfl, hrest⟩
    · rename_i hinner
      exact ⟨fun h => absurd (List.isEmpty_iff.2 h) hinner, hrest⟩

end Token

namespace Builder

def lay (before nodes : List Node) : List OpenBlock → List Node × List OpenBlock
  | [] => (Draft.splice nodes before, [])
  | block :: outer =>
    (nodes, { block with before := (lay before block.before outer).1 } ::
      (lay before block.before outer).2)

/-- The second builder has what the first one has, read on behind the run `before`. -/
def LaidOn (before : List Node) (b b' : Builder) : Prop :=
  lay before b.draft.nodes b.blocks = (b'.draft.nodes, b'.blocks)

variable {source : Source} {before nodes added : List Node} {d d' e e' : Draft}
  {blocks blocks' rest : List OpenBlock} {b b' : Builder}

theorem abandonAll_cons (source : Source) (d : Draft) (block : OpenBlock)
    (outer : List OpenBlock) :
    abandonAll source d (block :: outer) =
      abandonAll source (block.abandon source d) outer := rfl

theorem abandonAll_append (source : Source) (d : Draft) (blocks rest : List OpenBlock) :
    abandonAll source d (blocks ++ rest) =
      abandonAll source (abandonAll source d blocks) rest :=
  List.foldl_append

theorem lay_splice : lay before (Draft.splice added nodes) blocks =
    (Draft.splice added (lay before nodes blocks).1, (lay before nodes blocks).2) := by
  cases blocks with
  | nil => rw [lay, lay, Draft.splice_splice]
  | cons block outer => rfl

namespace LaidOn

theorem splice (added : List Node) (h : LaidOn before ⟨d, blocks⟩ ⟨d', blocks'⟩)
    (he : e.nodes = Draft.splice added d.nodes) (he' : e'.nodes = Draft.splice added d'.nodes) :
    LaidOn before ⟨e, blocks⟩ ⟨e', blocks'⟩ := by
  have hlay : lay before d.nodes blocks = (d'.nodes, blocks') := h
  simp only [LaidOn, he, he', lay_splice, hlay]

theorem openBlock (h : LaidOn before ⟨d, blocks⟩ ⟨d', blocks'⟩) (opened : Opened)
    (start stop : Nat) :
    LaidOn before ⟨{ d with nodes := [] }, ⟨opened, start, stop, d.nodes⟩ :: blocks⟩
      ⟨{ d' with nodes := [] }, ⟨opened, start, stop, d'.nodes⟩ :: blocks'⟩ := by
  have hlay : lay before d.nodes blocks = (d'.nodes, blocks') := h
  simp only [LaidOn, lay, hlay]

/-- The innermost blocks of both differ in the runs that hold them, and these go together too. -/
theorem innermost {block : OpenBlock} {outer : List OpenBlock}
    (h : LaidOn before ⟨d, block :: outer⟩ ⟨d', blocks'⟩) :
    ∃ held outer', d'.nodes = d.nodes ∧ blocks' = { block with before := held } :: outer' ∧
      LaidOn before ⟨{ d with nodes := block.before }, outer⟩
        ⟨{ d' with nodes := held }, outer'⟩ := by
  obtain ⟨hnodes, hblocks⟩ := Prod.mk.inj h
  exact ⟨_, _, hnodes.symm, hblocks.symm, rfl⟩

theorem stops_eq (h : LaidOn before ⟨d, blocks⟩ ⟨d', blocks'⟩) : stops blocks' = stops blocks := by
  obtain ⟨-, rfl⟩ := Prod.mk.inj h
  cases blocks <;> rfl

theorem takeOther (h : LaidOn before b b') (kind : Directive) (args : String) (t : Token) :
    LaidOn before (Builder.takeOther source b kind args t)
      (Builder.takeOther source b' kind args t) := by
  obtain ⟨hnodes, hopened⟩ := Draft.enter_eq source b.draft kind args t
  obtain ⟨hnodes', hopened'⟩ := Draft.enter_eq source b'.draft kind args t
  rw [← hopened] at hopened'
  unfold Builder.takeOther
  rcases he : b.draft.enter source kind args t with ⟨e, opened⟩
  rcases he' : b'.draft.enter source kind args t with ⟨e', opened'⟩
  rw [he] at hnodes hopened'
  rw [he'] at hnodes' hopened'
  obtain rfl : opened' = opened := hopened'
  have hentered := h.splice _ hnodes hnodes'
  cases opened' with
  | none => exact hentered
  | some opened => exact hentered.openBlock opened t.start t.stop

theorem takeStop {block : OpenBlock} {outer : List OpenBlock}
    (h : LaidOn before ⟨d, block :: outer⟩ ⟨d', blocks'⟩) (source : Source) (kind : Directive)
    (t : Token) :
    ∃ block' outer', blocks' = block' :: outer' ∧ block'.opened = block.opened ∧
      LaidOn before (Builder.takeStop source d block outer kind t)
        (Builder.takeStop source d' block' outer' kind t) := by
  obtain ⟨held, outer', hnodes, rfl, houter⟩ := h.innermost
  refine ⟨_, outer', rfl, rfl, ?_⟩
  obtain ⟨opened, start, stop, before'⟩ := block
  have hlay : lay before before' outer = (held, outer') := houter
  unfold Builder.takeStop
  split
  · unfold OpenBlock.switch
    cases opened with
    | conditional condition consequent =>
      cases consequent <;> simp [LaidOn, lay, hlay, hnodes, Draft.report]
    | _ => simp [LaidOn, lay, hlay, hnodes, Draft.report]
  · refine houter.splice [OpenBlock.node opened d.nodes.reverse
      (source.slice stop t.start) (source.location start t.stop)] ?_ ?_
    · rw [Draft.splice_node]
      rfl
    · rw [Draft.splice_node, ← hnodes]
      rfl

/-- Both may take the same token. -/
theorem take (h : LaidOn before b b') (t : Token) :
    LaidOn before (Builder.take source b t) (Builder.take source b' t) := by
  obtain ⟨d, blocks⟩ := b
  obtain ⟨d', blocks'⟩ := b'
  cases ht : t.kind with
  | text =>
    simp only [Builder.take, ht]
    exact h.splice [.text (String.ofList t.lexeme) (source.location t.start t.stop)] rfl rfl
  | interpolation escape content =>
    simp only [Builder.take, ht]
    exact h.splice [.interpolation (Expr.parse (String.ofList content)) escape
      (source.location t.start t.stop)] rfl rfl
  | directive kind args =>
    have hstops := h.stops_eq
    by_cases hk : kind ∈ stops blocks
    · cases blocks with
      | nil => cases hk
      | cons block outer =>
        obtain ⟨block', outer', rfl, hopened, hstop⟩ := h.takeStop source kind t
        rw [take_stop ht hk, take_stop ht (hopened ▸ hk)]
        exact hstop
    · rw [take_other ht hk, take_other ht (hstops ▸ hk)]
      exact h.takeOther kind _ t

/-- Where no block is open, the first may take a token that could end one, the second what is kept of
it. -/
theorem take_kept {block : BlockKind} {t : Token} (h : LaidOn before ⟨d, []⟩ ⟨d', blocks'⟩)
    (hends : t.ends block = true) :
    LaidOn before (Builder.take source ⟨d, []⟩ t)
      ((t.kept (some block)).foldl (Builder.take source) ⟨d', blocks'⟩) := by
  obtain ⟨kind, args, ht, henter⟩ := Token.enter_of_ends hends source
  rw [take_other ht List.not_mem_nil, Builder.takeOther, henter, Token.kept, Option.any_some, hends,
    if_pos rfl]
  by_cases hsection : block = .sectionBlock
  · simp only [hsection, if_true, List.foldl_nil]
    exact h
  · simp only [hsection, Option.some.injEq, if_false, List.foldl_cons, List.foldl_nil]
    exact h.splice [.text (String.ofList t.lexeme) (source.location t.start t.stop)] rfl rfl

theorem foldl_keep (h : LaidOn before b b') (source : Source) (around : Option BlockKind)
    (ts : List Token) :
    LaidOn before (ts.foldl (Builder.take source) b)
      ((Token.keep around (b.blocks.map OpenBlock.mark) ts).foldl (Builder.take source) b') := by
  induction ts generalizing b b' with
  | nil => exact h
  | cons t ts ih =>
    -- Which tokens are kept is told by the marks, and these go with the blocks of the first builder.
    have hmarks := (take_follows source b.draft b.blocks t).1
    rw [Token.keep, List.foldl_append, ← hmarks, List.foldl_cons]
    refine ih ?_
    split
    · rename_i hempty
      obtain ⟨d, blocks⟩ := b
      obtain rfl : blocks = [] := List.map_eq_nil_iff.1 (List.isEmpty_iff.1 hempty)
      cases hends : around.any t.ends with
      | false =>
        simp only [Token.kept, hends, Bool.false_eq_true, if_false]
        exact h.take t
      | true =>
        obtain ⟨block, rfl, hblock⟩ := (Option.any_eq_true _ _).1 hends
        exact h.take_kept hblock
    · exact h.take t

theorem abandon {block : OpenBlock} {outer outer' : List OpenBlock} {held : List Node}
    (hnodes : d'.nodes = d.nodes)
    (houter : LaidOn before ⟨{ d with nodes := block.before }, outer⟩
      ⟨{ d' with nodes := held }, outer'⟩) (source : Source) :
    LaidOn before ⟨block.abandon source d, outer⟩
      ⟨OpenBlock.abandon source { block with before := held } d', outer'⟩ := by
  refine houter.splice (block.remains source d.nodes) ?_ ?_
  · rw [OpenBlock.nodes_abandon]
  · rw [OpenBlock.nodes_abandon, hnodes]
    rfl

theorem nodes_abandonAll (h : LaidOn before ⟨d, blocks⟩ ⟨d', blocks'⟩) (source : Source) :
    (abandonAll source d' blocks').nodes =
      Draft.splice (abandonAll source d blocks).nodes before := by
  induction blocks generalizing d d' blocks' with
  | nil =>
    obtain ⟨hnodes, rfl⟩ := Prod.mk.inj h
    exact hnodes.symm
  | cons block outer ih =>
    obtain ⟨held, outer', hnodes, rfl, houter⟩ := h.innermost
    rw [abandonAll_cons, abandonAll_cons]
    exact ih (houter.abandon hnodes source)

end LaidOn

/-- Blocks further out do not matter to a token that does not end the innermost of them. -/
theorem take_append {t : Token}
    (h : blocks = [] → (Mark.top (rest.map OpenBlock.mark)).any t.ends = false) :
    take source ⟨d, blocks ++ rest⟩ t =
      ⟨(take source ⟨d, blocks⟩ t).draft, (take source ⟨d, blocks⟩ t).blocks ++ rest⟩ := by
  cases ht : t.kind with
  | text => simp only [take, ht]
  | interpolation escape content => simp only [take, ht]
  | directive kind args =>
    have hstops : kind ∈ stops (blocks ++ rest) ↔ kind ∈ stops blocks := by
      cases blocks with
      | cons block outer => exact Iff.rfl
      | nil =>
        refine iff_of_false (fun hk => ?_) List.not_mem_nil
        cases rest with
        | nil => cases hk
        | cons block outer =>
          have hends := (Token.ends_iff ht block.opened).2 hk
          exact absurd hends (Bool.eq_false_iff.1 (h rfl))
    by_cases hk : kind ∈ stops blocks
    · cases blocks with
      | nil => cases hk
      | cons block outer =>
        rw [List.cons_append, take_stop ht hk, take_stop ht hk]
        unfold takeStop
        split <;> rfl
    · rw [take_other ht hk, take_other ht fun h => hk (hstops.1 h)]
      unfold takeOther
      rcases d.enter source kind (String.ofList (args.getD [])) t with ⟨e, opened⟩
      cases opened <;> rfl

theorem foldl_append (blocks rest : List OpenBlock) {ts : List Token}
    (h : Token.LeavesOpen (Mark.top (rest.map OpenBlock.mark)) (blocks.map OpenBlock.mark) ts) :
    ts.foldl (take source) ⟨d, blocks ++ rest⟩ =
      ⟨(ts.foldl (take source) ⟨d, blocks⟩).draft,
        (ts.foldl (take source) ⟨d, blocks⟩).blocks ++ rest⟩ := by
  induction ts generalizing d blocks with
  | nil => rfl
  | cons t ts ih =>
    obtain ⟨ht, hts⟩ := h
    rw [← (take_follows source d blocks t).1] at hts
    rw [List.foldl_cons, List.foldl_cons,
      take_append fun hnil => ht (List.map_eq_nil_iff.2 hnil), ih _ hts]

theorem foldl_eq (source : Source) (d : Draft) (rest : List OpenBlock) {ts : List Token}
    (h : Token.LeavesOpen (Mark.top (rest.map OpenBlock.mark)) [] ts) :
    ts.foldl (take source) ⟨d, rest⟩ =
      ⟨(ts.foldl (take source) ⟨d, []⟩).draft, (ts.foldl (take source) ⟨d, []⟩).blocks ++ rest⟩ :=
  foldl_append [] rest h

theorem nodes_abandonAll_congr (h : d.nodes = d'.nodes) :
    (abandonAll source d blocks).nodes = (abandonAll source d' blocks).nodes := by
  induction blocks generalizing d d' with
  | nil => exact h
  | cons block outer ih =>
    rw [abandonAll_cons, abandonAll_cons]
    refine ih ?_
    rw [OpenBlock.nodes_abandon, OpenBlock.nodes_abandon, h]

theorem marks_foldl (source : Source) (b : Builder) (ts : List Token) :
    (ts.foldl (take source) b).blocks.map OpenBlock.mark =
      Mark.after (b.blocks.map OpenBlock.mark) ts := by
  induction ts generalizing b with
  | nil => rfl
  | cons t ts ih =>
    rw [List.foldl_cons, ih, (take_follows source b.draft b.blocks t).1]
    rfl

/-- Opening an error block that the rest of the template leaves open gives the nodes that the rest
gives without it, where what would end the block around is kept from doing so. -/
theorem nodes_unclosed (source : Source) (pre : List Token) {post : List Token} {t : Token}
    {args : Option (List Char)} (ht : t.kind = .directive .openError args)
    (hopen : Token.LeavesOpen (some .errorBlock) [] post) :
    (parseTokens source (pre ++ t :: post)).1 =
      (parseTokens source
        (pre ++ Token.keep (Mark.top (Mark.after [] pre)) [] post)).1 := by
  rcases hpre : pre.foldl (take source) ⟨Draft.empty, []⟩ with ⟨d, outer⟩
  have houter : outer.map OpenBlock.mark = Mark.after [] pre := by
    have hmarks := marks_foldl source ⟨Draft.empty, []⟩ pre
    rwa [hpre] at hmarks
  have hne : Directive.openError ∉ stops outer := by
    cases outer with
    | nil => exact List.not_mem_nil
    | cons block outer => simp [stops, Opened.mem_stops_iff, BlockKind.closed?]
  let inside : Draft := { d with nodes := [] }
  let block : OpenBlock :=
    ⟨.errorBlock (Expr.parse (String.ofList (args.getD []))), t.start, t.stop, d.nodes⟩
  have htake : take source ⟨d, outer⟩ t = ⟨inside, block :: outer⟩ := by
    rw [take_other ht hne]
    rfl
  -- Neither the error block nor those around it matter to what is read behind it.
  have hkept := Token.leavesOpen_keep (Mark.top (Mark.after [] pre)) [] post
  rw [← houter] at hkept ⊢
  have hlaid : LaidOn d.nodes ⟨inside, []⟩ ⟨d, []⟩ := rfl
  have hleft := (hlaid.foldl_keep source (Mark.top (outer.map OpenBlock.mark)) post).nodes_abandonAll
    source
  rw [parseTokens_eq_build, parseTokens_eq_build, build, build, List.foldl_append,
    List.foldl_append, hpre, List.foldl_cons, htake, foldl_eq source inside (block :: outer) hopen,
    foldl_eq source d outer hkept, abandonAll_append, abandonAll_append, abandonAll_cons]
  refine congrArg List.reverse (nodes_abandonAll_congr ?_)
  rw [OpenBlock.nodes_abandon]
  exact hleft.symm

end Builder

end Templating
