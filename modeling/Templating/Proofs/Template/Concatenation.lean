import Templating.Proofs.Template.Relocation

/-!
# Templates one behind the other

A template that ends with a line end and has no errors may be followed by any other. The tokens of
the two are those of each, where text goes on from the one to the other. The blocks of the first are
closed, so the second is read into the outermost run (`Builder.Behind`), where it gives what it gives
on its own with its positions moved (`parseTemplate_append`).
-/

namespace Templating

open Text Node

/-! ## Errors do not depend on what stands before -/

theorem Draft.enter_errors {d d' : Draft} (h : d'.errors = d.errors) (source : Source)
    (kind : Directive) (args : String) (t : Token) :
    (d'.enter source kind args t).1.errors = (d.enter source kind args t).1.errors := by
  cases kind with
  | openForeach =>
    simp only [enter, enterLoop]
    split <;> simp [report, h]
  | openSection =>
    simp only [enter, enterSection]
    split
    · simp [report, h]
    · split <;> simp [report, push, h]
  | extendsLayout =>
    simp only [enter, pushLayout]
    split <;> simp [report, push, h]
  | _ => simp [enter, stray, pushText, report, push, h]

namespace Builder

variable {source : Source} {before : List Node} {b b' : Builder} {d d' : Draft}
  {blocks blocks' : List OpenBlock}

theorem errors_takeStop (block : OpenBlock) (held : List Node) (outer outer' : List OpenBlock)
    (kind : Directive) (t : Token) :
    (takeStop source d { block with before := held } outer' kind t).draft.errors =
      (takeStop source d block outer kind t).draft.errors := by
  obtain ⟨opened, start, stop, before⟩ := block
  unfold takeStop
  split
  · cases opened with
    | conditional condition consequent => cases consequent <;> rfl
    | _ => rfl
  · rfl

theorem errors_takeOther (h : d'.errors = d.errors) (kind : Directive) (args : String) (t : Token) :
    (takeOther source ⟨d', blocks'⟩ kind args t).draft.errors =
      (takeOther source ⟨d, blocks⟩ kind args t).draft.errors := by
  have hentered := Draft.enter_errors h source kind args t
  have hopened := (Draft.enter_eq source d kind args t).2
  rw [← (Draft.enter_eq source d' kind args t).2] at hopened
  unfold takeOther
  generalize d.enter source kind args t = entered at hentered hopened
  generalize d'.enter source kind args t = entered' at hentered hopened
  obtain ⟨e, opened⟩ := entered
  obtain ⟨e', opened'⟩ := entered'
  obtain rfl : opened = opened' := hopened
  cases opened <;> exact hentered

/-- The second builder has what the first one has, read on behind the run `before`, and the same
errors. -/
structure Behind (before : List Node) (b b' : Builder) : Prop where
  laid : LaidOn before b b'
  errors : b'.draft.errors = b.draft.errors

theorem Behind.take (h : Behind before b b') (source : Source) (t : Token) :
    Behind before (Builder.take source b t) (Builder.take source b' t) where
  laid := h.laid.take t
  errors := by
    obtain ⟨d, blocks⟩ := b
    obtain ⟨d', blocks'⟩ := b'
    obtain ⟨hlaid, herrors⟩ := h
    cases hkind : t.kind with
    | text =>
      simp only [Builder.take, hkind]
      exact herrors
    | interpolation escape content =>
      simp only [Builder.take, hkind]
      exact herrors
    | directive kind args =>
      have hstops := hlaid.stops_eq
      by_cases hk : kind ∈ stops blocks
      · cases blocks with
        | nil => cases hk
        | cons block outer =>
          obtain ⟨held, outer', hnodes, rfl, -⟩ := hlaid.innermost
          obtain ⟨nodes, errors⟩ := d
          obtain ⟨nodes', errors'⟩ := d'
          obtain rfl : nodes' = nodes := hnodes
          obtain rfl : errors' = errors := herrors
          have hk' : kind ∈ ({ block with before := held } : OpenBlock).opened.stops := hk
          rw [take_stop hkind hk, take_stop hkind hk']
          exact errors_takeStop block held outer outer' kind t
      · rw [take_other hkind hk, take_other hkind (hstops ▸ hk)]
        exact errors_takeOther herrors kind _ t

theorem Behind.foldl (h : Behind before b b') (source : Source) (ts : List Token) :
    Behind before (ts.foldl (Builder.take source) b) (ts.foldl (Builder.take source) b') := by
  induction ts generalizing b b' with
  | nil => exact h
  | cons t ts ih => exact ih (h.take source t)

theorem Behind.errors_abandonAll (h : Behind before ⟨d, blocks⟩ ⟨d', blocks'⟩) (source : Source) :
    (Builder.abandonAll source d' blocks').errors = (Builder.abandonAll source d blocks).errors := by
  induction blocks generalizing d d' blocks' with
  | nil =>
    obtain ⟨-, rfl⟩ := Prod.mk.inj h.laid
    exact h.errors
  | cons block outer ih =>
    obtain ⟨held, outer', hnodes, rfl, houter⟩ := h.laid.innermost
    rw [abandonAll_cons, abandonAll_cons]
    refine ih ⟨houter.abandon hnodes source, ?_⟩
    exact congrArg (_ :: ·) h.errors

end Builder

/-! ## Nodes behind others -/

namespace Node

/-- Moved nodes behind a text that ends right before their template: text at the very beginning of
the template joins it. -/
def joined (σ : Position → Position) (content : String) (loc : Location) : List Node → List Node
  | .text more loc' :: ns =>
    if loc'.start.offset = 0 then
      .text (content ++ more) ⟨loc.start, σ loc'.stop⟩ :: ns.map (move σ)
    else .text content loc :: (Node.text more loc' :: ns).map (move σ)
  | ns => .text content loc :: ns.map (move σ)

theorem consNode_of_not_touches {last n : Node} (h : ¬last.Touches n) (ns : List Node) :
    Draft.consNode n (last :: ns) = n :: last :: ns := by
  cases n with
  | text content loc =>
    cases last with
    | text last lastLoc => exact if_neg h
    | _ => rfl
  | _ => rfl

theorem splice_of_apart {last : Node} {ms : List Node}
    (h : (last :: ms).IsChain fun n n' => ¬n.Touches n') (ns : List Node) :
    Draft.splice ms.reverse (last :: ns) = ms.reverse ++ last :: ns := by
  induction ms generalizing last ns with
  | nil => rfl
  | cons m ms ih =>
    obtain ⟨hlast, hchain⟩ := List.isChain_cons_cons.1 h
    have hfirst : Draft.splice (ms.reverse ++ [m]) (last :: ns) =
        Draft.splice ms.reverse (Draft.consNode m (last :: ns)) := List.foldr_append
    rw [List.reverse_cons, hfirst, consNode_of_not_touches hlast, ih hchain, List.append_assoc]
    rfl

theorem touches_move {σ : Position → Position}
    (hσ : ∀ p q, (σ p).offset = (σ q).offset ↔ p.offset = q.offset) {n n' : Node} :
    (n.move σ).Touches (n'.move σ) ↔ n.Touches n' := by
  cases n with
  | text content loc =>
    cases n' with
    | text content' loc' => exact hσ _ _
    | conditional condition consequent alternate loc => cases alternate <;> exact Iff.rfl
    | _ => exact Iff.rfl
  | conditional condition consequent alternate loc => cases alternate <;> exact Iff.rfl
  | _ => exact Iff.rfl

theorem touches_congr {content content' : String} {start start' stop : Position} (n : Node) :
    (Node.text content ⟨start, stop⟩).Touches n ↔ (Node.text content' ⟨start', stop⟩).Touches n := by
  cases n <;> exact Iff.rfl

/-- Nodes behind a text. Text that begins where it ends joins it. -/
def behindText (content : String) (loc : Location) : List Node → List Node
  | .text more loc' :: ns =>
    if loc.stop.offset = loc'.start.offset then
      .text (content ++ more) ⟨loc.start, loc'.stop⟩ :: ns
    else .text content loc :: .text more loc' :: ns
  | ns => .text content loc :: ns

variable {content : String} {loc : Location} {ns : List Node}

theorem behindText_of_not_touches {n : Node} (h : ¬(Node.text content loc).Touches n)
    (ns : List Node) : behindText content loc (n :: ns) = .text content loc :: n :: ns := by
  cases n with
  | text => exact if_neg h
  | _ => rfl

theorem splice_behindText (hns : ns.IsChain fun n n' => ¬n.Touches n') (before : List Node) :
    (Draft.splice ns.reverse (.text content loc :: before)).reverse =
      before.reverse ++ behindText content loc ns := by
  cases ns with
  | nil => simp [Draft.splice, behindText]
  | cons n ns =>
    have hfirst : Draft.splice (ns.reverse ++ [n]) (.text content loc :: before) =
        Draft.splice ns.reverse (Draft.consNode n (.text content loc :: before)) :=
      List.foldr_append
    rw [List.reverse_cons, hfirst]
    by_cases h : (Node.text content loc).Touches n
    · cases n with
      | text more loc' =>
        have hjoin : Draft.consNode (.text more loc') (.text content loc :: before) =
            .text (content ++ more) ⟨loc.start, loc'.stop⟩ :: before := if_pos h
        have hchain : (Node.text (content ++ more) ⟨loc.start, loc'.stop⟩ :: ns).IsChain
            fun n n' => ¬n.Touches n' := by
          obtain ⟨hlast, hrest⟩ := List.isChain_cons.1 hns
          exact List.isChain_cons.2 ⟨fun n hn => mt (touches_congr n).1 (hlast n hn), hrest⟩
        have htouch : loc.stop.offset = loc'.start.offset := h
        rw [hjoin, splice_of_apart hchain, behindText, if_pos htouch]
        simp
      | _ => cases h
    · rw [consNode_of_not_touches h, splice_of_apart hns, behindText_of_not_touches h]
      simp

variable {σ : Position → Position} {bytes : Nat} (hσ : ∀ p, (σ p).offset = p.offset + bytes)

include hσ

theorem behindText_move (hloc : loc.stop.offset = bytes) (ns : List Node) :
    behindText content loc (ns.map (move σ)) = joined σ content loc ns := by
  cases ns with
  | nil => rfl
  | cons n ns =>
    cases n with
    | text more loc' =>
      have htouch : loc.stop.offset = (σ loc'.start).offset ↔ loc'.start.offset = 0 := by
        rw [hσ, hloc]
        omega
      simp only [List.map_cons, move, Location.move, behindText, joined, htouch]
    | conditional condition consequent alternate loc' => cases alternate <;> rfl
    | _ => rfl

theorem apart_move (hns : ns.IsChain fun n n' => ¬n.Touches n') :
    (ns.map (move σ)).IsChain fun n n' => ¬n.Touches n' := by
  refine (List.isChain_map _).2 (hns.imp fun n n' h => mt (touches_move ?_).1 h)
  intro p q
  rw [hσ, hσ, Nat.add_right_cancel_iff]

end Node

/-! ## The whole -/

theorem Draft.exists_consText (content : String) (loc : Location) (ns : List Node) :
    ∃ whole loc' before, consText content loc ns = .text whole loc' :: before ∧
      loc'.stop = loc.stop := by
  unfold consText
  split
  · split
    · exact ⟨_, _, _, rfl, rfl⟩
    · exact ⟨_, _, _, rfl, rfl⟩
  · exact ⟨_, _, _, rfl, rfl⟩

namespace Builder

variable {m : Markers} {a b : String}

def read (m : Markers) (cs : List Char) : Builder :=
  (Token.tokens m cs).foldl (take (Source.ofChars cs)) ⟨Draft.empty, []⟩

def built (m : Markers) (cs : List Char) : Draft :=
  abandonAll (Source.ofChars cs) (read m cs).draft (read m cs).blocks

theorem children_parseTemplate (m : Markers) (text : String) :
    (parseTemplate m text).root.children = (built m text.toList).nodes.reverse :=
  congrArg Prod.fst (parseTokens_eq_build _ (Token.tokens m text.toList))

theorem errors_parseTemplate (m : Markers) (text : String) :
    (parseTemplate m text).errors =
      (Token.errors m text.toList).map (TokenError.located (Source.ofChars text.toList)) ++
        (built m text.toList).errors.reverse :=
  congrArg (_ ++ ·) (congrArg Prod.snd (parseTokens_eq_build _ (Token.tokens m text.toList)))

theorem anchored_read (m : Markers) (cs : List Char) :
    ∀ block ∈ (read m cs).blocks, block.Anchored cs :=
  anchored_foldl _ (Token.stands_tokens m cs) (fun _ h => nomatch h)

theorem errors_abandonAll_eq_nil_iff {source : Source} {d : Draft} {blocks : List OpenBlock} :
    (abandonAll source d blocks).errors = [] ↔ blocks = [] ∧ d.errors = [] := by
  induction blocks generalizing d with
  | nil => simp [abandonAll]
  | cons block outer ih => simp [abandonAll_cons, ih, OpenBlock.abandon]

/-- A template without errors leaves a run of nodes and nothing else, also when another follows. -/
theorem foldl_front (h : (parseTemplate m a).errors = []) (cs : List Char) :
    (parseTemplate m a).root.children = (read m a.toList).draft.nodes.reverse ∧
      (Token.tokens m a.toList).foldl (take (Source.ofChars (a.toList ++ cs))) ⟨Draft.empty, []⟩ =
        ⟨⟨(read m a.toList).draft.nodes, []⟩, []⟩ := by
  rw [errors_parseTemplate] at h
  have hstructure := List.reverse_eq_nil_iff.1 (List.append_eq_nil_iff.1 h).2
  obtain ⟨hblocks, herrors⟩ := errors_abandonAll_eq_nil_iff.1 hstructure
  have hmoved := foldl_move (Source.moved_front a.toList cs) (Token.stands_tokens m a.toList)
    (b := ⟨Draft.empty, []⟩) (fun _ h => nomatch h)
  have hid : (Node.move id : Node → Node) = id := funext Node.move_id
  rw [Token.map_later_zero] at hmoved
  constructor
  · rw [children_parseTemplate, built, hblocks]
    rfl
  · refine hmoved.trans ?_
    change (read m a.toList).move id 0 = _
    rw [move, Draft.move, hblocks, herrors, hid, List.map_id]
    rfl

/-- A template without errors has all of its pieces closed. -/
theorem closed_of_parseTemplate (h : (parseTemplate m a).errors = []) :
    ∀ p ∈ Piece.pieces m a.toList, p.isUnclosed = false := by
  have hearly := List.map_eq_nil_iff.1 (List.append_eq_nil_iff.1 h).1
  rw [Token.errors_eq_errorsFrom] at hearly
  exact Token.errorsFrom_eq_nil_iff.1 hearly

/-- The last line end of a template without errors is in a text that nothing follows. -/
theorem exists_read_eq (hm : m.WithinLine) (ha : EndsLine a.toList)
    (h : (parseTemplate m a).errors = []) :
    ∃ content loc before, (read m a.toList).draft.nodes = .text content loc :: before ∧
      loc.stop = (Source.ofChars a.toList).position (byteLength a.toList) := by
  obtain ⟨ps, chars, hpieces, hne⟩ := Piece.exists_pieces_eq hm ha (closed_of_parseTemplate h)
  obtain ⟨c, cs, rfl⟩ := List.exists_cons_of_ne_nil hne
  have hbytes : byteLength (ps.flatMap Piece.source) + byteLength (c :: cs) =
      byteLength a.toList := by
    rw [← byteLength_append, ← Piece.pieces_source m a.toList, hpieces, List.flatMap_append]
    simp [Piece.source]
  rw [read, ← Token.laid_pieces, hpieces, foldl_laid_append, Nat.zero_add, ← hbytes]
  generalize (Token.laid 0 ps).foldl (take (Source.ofChars a.toList)) ⟨Draft.empty, []⟩ = front
  have hlast : Token.laid (byteLength (ps.flatMap Piece.source)) [.text (c :: cs)] =
      [⟨byteLength (ps.flatMap Piece.source), c :: cs, .text⟩] := by
    simp [Token.laid, Token.tokensFrom, Token.ofText]
  rw [hlast]
  exact Draft.exists_consText _ _ _

/-- Behind a template without errors a template is read as it is on its own, moved. -/
theorem behind_back (hm : m.WithinLine) (ha : EndsLine a.toList)
    (h : (parseTemplate m a).errors = [])
    (hsize : byteLength (a.toList ++ b.toList) < 4294967296) :
    Behind (read m a.toList).draft.nodes
      ((read m b.toList).move
        (Position.shift (byteLength a.toList) (a.toList.count '\n')) (byteLength a.toList))
      (read m (a.toList ++ b.toList)) := by
  have hback := foldl_move (Source.moved_back ha hsize) (Token.stands_tokens m b.toList)
    (b := ⟨Draft.empty, []⟩) (fun _ h => nomatch h)
  have hlater : Token.laid (byteLength a.toList) (Piece.pieces m b.toList) =
      (Token.tokens m b.toList).map (Token.later (byteLength a.toList)) := by
    rw [← Token.laid_pieces, ← Token.laid_later, Nat.add_zero]
  have htokens : read m (a.toList ++ b.toList) =
      ((Token.tokens m b.toList).map (Token.later (byteLength a.toList))).foldl
        (take (Source.ofChars (a.toList ++ b.toList)))
        ⟨⟨(read m a.toList).draft.nodes, []⟩, []⟩ := by
    rw [read, ← Token.laid_pieces, Piece.pieces_append hm (.inr ha) (closed_of_parseTemplate h),
      foldl_laid_append, Token.laid_pieces, (foldl_front h b.toList).2, Piece.pieces_source,
      Nat.zero_add, hlater]
  have hstart : Behind (read m a.toList).draft.nodes ⟨Draft.empty, []⟩
      ⟨⟨(read m a.toList).draft.nodes, []⟩, []⟩ := ⟨rfl, rfl⟩
  have hmoved : (read m b.toList).move (Position.shift (byteLength a.toList)
      (a.toList.count '\n')) (byteLength a.toList) = _ := hback.symm
  rw [htokens, hmoved]
  exact hstart.foldl _ _

theorem built_append (hm : m.WithinLine) (ha : EndsLine a.toList)
    (h : (parseTemplate m a).errors = [])
    (hsize : byteLength (a.toList ++ b.toList) < 4294967296) :
    let σ := Position.shift (byteLength a.toList) (a.toList.count '\n')
    (built m (a.toList ++ b.toList)).nodes =
        Draft.splice ((built m b.toList).nodes.map (Node.move σ)) (read m a.toList).draft.nodes ∧
      (built m (a.toList ++ b.toList)).errors =
        (built m b.toList).errors.map (TemplateError.move σ) := by
  intro σ
  have hbehind := behind_back hm ha h hsize
  have hended := abandonAll_move (Source.moved_back ha hsize) (byteLength_append _ _)
    (anchored_read m b.toList) (read m b.toList).draft
  have hnodes : (built m (a.toList ++ b.toList)).nodes = _ := hbehind.laid.nodes_abandonAll _
  have herrors : (built m (a.toList ++ b.toList)).errors = _ := hbehind.errors_abandonAll _
  exact ⟨hnodes.trans (congrArg (fun d => Draft.splice d.nodes _) hended),
    herrors.trans (congrArg Draft.errors hended)⟩

/-- The nodes of the whole are those of the first and, moved, those of the second, where text may go
on from the one to the other. -/
theorem children_append (hm : m.WithinLine) (ha : EndsLine a.toList)
    (h : (parseTemplate m a).errors = []) (hsize : byteLength (a ++ b).toList < 4294967296) :
    ∃ before content loc,
      (parseTemplate m a).root.children = before ++ [.text content loc] ∧
        (parseTemplate m (a ++ b)).root.children =
          before ++ Node.joined (Position.shift (byteLength a.toList) (a.toList.count '\n'))
            content loc (parseTemplate m b).root.children := by
  rw [String.toList_append] at hsize
  have hshorter : byteLength a.toList < 4294967296 ∧ byteLength b.toList < 4294967296 := by
    rw [byteLength_append] at hsize
    omega
  obtain ⟨content, loc, before, hlast, hstop⟩ := exists_read_eq hm ha h
  have hplaced := (placed_parseTokens hshorter.2 (Token.stands_tokens m b.toList)
    (Token.covers_tokens m b.toList).pairwise).1
  have hapart : (parseTemplate m b).root.children.IsChain fun n n' => ¬n.Touches n' :=
    hplaced.1.apart
  refine ⟨before.reverse, content, loc, ?_, ?_⟩
  · rw [(foldl_front h b.toList).1, hlast, List.reverse_cons]
  · have hoffset : loc.stop.offset = byteLength a.toList := by
      rw [hstop, Source.offset_position hshorter.1 (Nat.le_refl _)]
    rw [← Node.behindText_move (fun _ => rfl) hoffset,
      ← Node.splice_behindText (Node.apart_move (fun _ => rfl) hapart), children_parseTemplate,
      children_parseTemplate, String.toList_append, (built_append hm ha h hsize).1, hlast,
      ← List.map_reverse, List.reverse_reverse]

theorem errors_append (hm : m.WithinLine) (ha : EndsLine a.toList)
    (h : (parseTemplate m a).errors = []) (hsize : byteLength (a ++ b).toList < 4294967296) :
    (parseTemplate m (a ++ b)).errors =
      (parseTemplate m b).errors.map
        (TemplateError.move (Position.shift (byteLength a.toList) (a.toList.count '\n'))) := by
  rw [String.toList_append] at hsize
  have hearly : (Token.errors m b.toList).map
        (TokenError.located (Source.ofChars (a.toList ++ b.toList)) ∘
          TokenError.later (byteLength a.toList)) =
      (Token.errors m b.toList).map
        (TemplateError.move (Position.shift (byteLength a.toList) (a.toList.count '\n')) ∘
          TokenError.located (Source.ofChars b.toList)) :=
    List.map_congr_left fun e he => TokenError.located_later (Source.moved_back ha hsize) he
  rw [errors_parseTemplate, errors_parseTemplate, String.toList_append,
    Token.errors_append hm ha (closed_of_parseTemplate h), (built_append hm ha h hsize).2,
    List.map_append, List.map_map, List.map_map, hearly, List.map_reverse]

end Builder

/-- Concatenation at a line end. Where a template without errors that ends with a line end is
followed by any other, less than four gibibytes in all, the whole has the nodes of the first and then
those of the second, moved by the bytes and lines of the first, but that text at the very beginning
of the second joins the text that the first ends with. Its errors are those of the second, moved
likewise. -/
theorem parseTemplate_append (a b : String) (ha : EndsLine a.toList)
    (herrors : (parseTemplate Markers.standard a).errors = [])
    (hsize : byteLength (a ++ b).toList < 4294967296) :
    let σ := Position.shift (byteLength a.toList) (a.toList.count '\n')
    let front := parseTemplate Markers.standard a
    let back := parseTemplate Markers.standard b
    let whole := parseTemplate Markers.standard (a ++ b)
    (∃ before content loc, front.root.children = before ++ [.text content loc] ∧
        whole.root.children = before ++ Node.joined σ content loc back.root.children) ∧
      whole.errors = back.errors.map (TemplateError.move σ) :=
  ⟨Builder.children_append Markers.withinLine_standard ha herrors hsize,
    Builder.errors_append Markers.withinLine_standard ha herrors hsize⟩

/-- A doubled sign, a condition without parentheses, and quotes and parentheses that stay open. -/
def frontPage : String := "it's @@if @if $ready\n\x7b\x7b $x \x7d\x7d@endif(\n"

/-- Text, a closing directive that closes nothing, and a block and an interpolation that stay open. -/
def backPage : String := "') @endif\n@if $y\n\x7b\x7b 'x"

theorem parseTemplate_append_pages :
    let σ := Position.shift (byteLength frontPage.toList) (frontPage.toList.count '\n')
    let front := parseTemplate Markers.standard frontPage
    let back := parseTemplate Markers.standard backPage
    let whole := parseTemplate Markers.standard (frontPage ++ backPage)
    EndsLine frontPage.toList ∧ front.errors = [] ∧
      byteLength (frontPage ++ backPage).toList < 4294967296 ∧
      (∃ before content loc, front.root.children = before ++ [.text content loc] ∧
        whole.root.children = before ++ Node.joined σ content loc back.root.children) ∧
      whole.errors = back.errors.map (TemplateError.move σ) ∧
      whole.errors.map (·.loc.start) = [⟨54, 5, 1⟩, ⟨40, 3, 4⟩, ⟨47, 4, 1⟩] := by
  have ha : EndsLine frontPage.toList := rfl
  have herrors : (parseTemplate Markers.standard frontPage).errors = [] := by cbv
  have hsize : byteLength (frontPage ++ backPage).toList < 4294967296 := by decide
  obtain ⟨hchildren, hmoved⟩ := parseTemplate_append frontPage backPage ha herrors hsize
  refine ⟨ha, herrors, hsize, hchildren, hmoved, ?_⟩
  rw [hmoved]
  cbv

end Templating
