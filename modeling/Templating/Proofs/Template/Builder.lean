import Templating.Template.Parser

/-!
# Parsing as a fold

The parser descends into blocks. The same result comes from taking the tokens one after another into
a `Builder`, which keeps the open blocks on a stack and ends them all when the tokens run out
(`parseTokens_eq_build`). What is said of one token then extends to a template by induction on the
list of its tokens.
-/

namespace Templating

/-- A template being parsed: the run being read, and the open blocks, the innermost first. -/
structure Builder where
  draft : Draft
  blocks : List OpenBlock

namespace Builder

def stops : List OpenBlock → List Directive
  | [] => []
  | block :: _ => block.opened.stops

def takeStop (source : Source) (d : Draft) (block : OpenBlock) (outer : List OpenBlock)
    (kind : Directive) (t : Token) : Builder :=
  if kind = .otherwise then
    let (block, d) := block.switch source t d
    ⟨d, block :: outer⟩
  else ⟨block.close source t d, outer⟩

def takeOther (source : Source) (b : Builder) (kind : Directive) (args : String) (t : Token) :
    Builder :=
  match b.draft.enter source kind args t with
  | (d, none) => ⟨d, b.blocks⟩
  | (d, some opened) => ⟨{ d with nodes := [] }, ⟨opened, t.start, t.stop, d.nodes⟩ :: b.blocks⟩

def take (source : Source) (b : Builder) (t : Token) : Builder :=
  match t.kind with
  | .text => { b with draft := b.draft.pushText t.lexeme (source.location t.start t.stop) }
  | .interpolation escape content =>
    { b with draft := b.draft.push (.interpolation (Expr.parse (String.ofList content)) escape
        (source.location t.start t.stop)) }
  | .directive kind args =>
    match b.blocks with
    | [] => takeOther source b kind (String.ofList (args.getD [])) t
    | block :: outer =>
      if kind ∈ block.opened.stops then takeStop source b.draft block outer kind t
      else takeOther source b kind (String.ofList (args.getD [])) t

def abandonAll (source : Source) (d : Draft) (blocks : List OpenBlock) : Draft :=
  blocks.foldl (fun d block => block.abandon source d) d

/-- The outermost run after the tokens `ts`, read from a place in the open blocks on. -/
def build (source : Source) (d : Draft) (blocks : List OpenBlock) (ts : List Token) : Draft :=
  let b := ts.foldl (take source) ⟨d, blocks⟩
  abandonAll source b.draft b.blocks

theorem build_nil (source : Source) (d : Draft) (blocks : List OpenBlock) :
    build source d blocks [] = abandonAll source d blocks := rfl

theorem build_cons (source : Source) (d : Draft) (blocks : List OpenBlock) (t : Token)
    (ts : List Token) :
    build source d blocks (t :: ts) =
      build source (take source ⟨d, blocks⟩ t).draft (take source ⟨d, blocks⟩ t).blocks ts := rfl

theorem take_stop {source : Source} {d : Draft} {block : OpenBlock} {outer : List OpenBlock}
    {kind : Directive} {args : Option (List Char)} {t : Token} (ht : t.kind = .directive kind args)
    (hk : kind ∈ block.opened.stops) :
    take source ⟨d, block :: outer⟩ t = takeStop source d block outer kind t := by
  simp only [take, ht, hk, if_true]

theorem take_other {source : Source} {d : Draft} {blocks : List OpenBlock} {kind : Directive}
    {args : Option (List Char)} {t : Token} (ht : t.kind = .directive kind args)
    (hk : kind ∉ stops blocks) :
    take source ⟨d, blocks⟩ t =
      takeOther source ⟨d, blocks⟩ kind (String.ofList (args.getD [])) t := by
  cases blocks with
  | nil => simp only [take, ht]
  | cons block outer =>
    have hk' : kind ∉ block.opened.stops := hk
    simp only [take, ht, hk', if_false]

/-- The fold over a run and what follows it, from what the descent makes of the run. -/
def resume (source : Source) (blocks : List OpenBlock) {input : List Token} : Halt input → Draft
  | .atEnd d => abandonAll source d blocks
  | .atStop d _ t rest _ => build source d blocks (t :: rest)

def EndsIn (directives : List Directive) {input : List Token} : Halt input → Prop
  | .atEnd _ => True
  | .atStop _ kind t _ _ => kind ∈ directives ∧ ∃ args, t.kind = .directive kind args

theorem endsIn_readRun (source : Source) (directives : List Directive) (input ts : List Token)
    (within : ts.length ≤ input.length) (d : Draft) :
    EndsIn directives (readRun source directives input ts within d) := by
  cases ts with
  | nil =>
    rw [readRun]
    trivial
  | cons t rest =>
    have hrest : rest.length < (t :: rest).length := Nat.lt_succ_self _
    rw [readRun]
    split
    · exact endsIn_readRun source directives input rest _ _
    · exact endsIn_readRun source directives input rest _ _
    · rename_i kind args hkind
      by_cases hk : kind ∈ directives
      · rw [if_pos hk]
        exact ⟨hk, args, hkind⟩
      · rw [if_neg hk]
        split
        · exact endsIn_readRun source directives input rest _ _
        · rename_i d' opened _
          have hafter := (readBlock source ⟨opened, t.start, t.stop, d'.nodes⟩ rest rest
            (Nat.le_refl _) { d' with nodes := [] }).within
          exact endsIn_readRun source directives input _ _ _
termination_by ts.length

mutual

/-- What the descent makes of a run in the innermost of `blocks` is what the fold makes of it. The
recursion follows the descent: inside a block the stack has the block on top, and below it nothing
changes. -/
theorem build_eq_resume (source : Source) (blocks : List OpenBlock) (input ts : List Token)
    (within : ts.length ≤ input.length) (d : Draft) :
    build source d blocks ts =
      resume source blocks (readRun source (stops blocks) input ts within d) := by
  cases ts with
  | nil =>
    rw [readRun]
    rfl
  | cons t rest =>
    have hrest : rest.length < (t :: rest).length := Nat.lt_succ_self _
    rw [readRun, build_cons]
    split
    · rename_i hkind
      simp only [take, hkind]
      exact build_eq_resume source blocks input rest _ _
    · rename_i escape content hkind
      simp only [take, hkind]
      exact build_eq_resume source blocks input rest _ _
    · rename_i kind args hkind
      by_cases hk : kind ∈ stops blocks
      · rw [if_pos hk]
        rfl
      · rw [if_neg hk, take_other hkind hk]
        split
        · rename_i d' hd
          simp only [takeOther, hd]
          exact build_eq_resume source blocks input rest _ _
        · rename_i d' opened hd
          have hafter := (readBlock source ⟨opened, t.start, t.stop, d'.nodes⟩ rest rest
            (Nat.le_refl _) { d' with nodes := [] }).within
          simp only [takeOther, hd]
          rw [build_block source _ blocks rest rest (Nat.le_refl _)]
          exact build_eq_resume source blocks input _ _ _
termination_by (ts.length, 0)

theorem build_block (source : Source) (block : OpenBlock) (outer : List OpenBlock)
    (input ts : List Token) (within : ts.length ≤ input.length) (d : Draft) :
    build source d (block :: outer) ts =
      build source (readBlock source block input ts within d).draft outer
        (readBlock source block input ts within d).rest := by
  have hends := endsIn_readRun source block.opened.stops ts ts (Nat.le_refl _) d
  rw [build_eq_resume source (block :: outer) ts ts (Nat.le_refl _) d, readBlock, stops]
  split
  · rename_i d' hrun
    rw [hrun]
    rfl
  · rename_i d' kind t rest hshorter hrun
    rw [hrun] at hends ⊢
    obtain ⟨hmem, args, hkind⟩ := hends
    rw [resume, build_cons, take_stop hkind hmem, takeStop]
    by_cases hk : kind = .otherwise
    · rw [if_pos hk, if_pos hk]
      exact build_block source _ outer input rest _ _
    · rw [if_neg hk, if_neg hk]
termination_by (ts.length, 1)

end

end Builder

/-- The descent and the fold give the same nodes and errors. -/
theorem parseTokens_eq_build (source : Source) (ts : List Token) :
    parseTokens source ts =
      ((Builder.build source Draft.empty [] ts).nodes.reverse,
        (Builder.build source Draft.empty [] ts).errors.reverse) := by
  have hends := Builder.endsIn_readRun source [] ts ts (Nat.le_refl _) Draft.empty
  rw [Builder.build_eq_resume source [] ts ts (Nat.le_refl _), parseTokens, Builder.stops]
  cases h : readRun source [] ts ts (Nat.le_refl _) Draft.empty with
  | atEnd d => rfl
  | atStop d kind t rest shorter =>
    rw [h] at hends
    exact absurd hends.1 List.not_mem_nil

end Templating
