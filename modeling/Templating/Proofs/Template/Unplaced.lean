import Templating.Proofs.Template.Concatenation

/-!
# Templates but for their positions

Two templates that go on with the same text behind directives that open the same block have the same
tree and the same errors, but for positions (`Builder.unplaced_of_opens`), however long the
directives are.

The text behind them is the same, `n` bytes further on in the one than in the other. As long as it is
read, the runs and the open blocks in both are the same but for positions, and text that touches in
the one touches in the other (`Builder.Delayed`). Offsets are counted in 32 bits, so this is said of
the offsets before they are cut.
-/

namespace Templating

open Text

/-! ## Without positions -/

namespace Node

/-- The node with a fixed position in place of all of its own. -/
def unplaced (node : Node) : Node :=
  node.move fun _ => default

end Node

def TemplateError.unplaced (e : TemplateError) : TemplateError :=
  e.move fun _ => default

def Parsed.unplaced (p : Parsed) : List Node × List TemplateError :=
  (p.root.children.map Node.unplaced, p.errors.map TemplateError.unplaced)

/-! ## Further on -/

def Position.Delayed (n : Nat) (p q : Position) : Prop :=
  ∃ i, p.offset = Source.word i ∧ q.offset = Source.word (n + i)

theorem Position.Delayed.offset_eq_iff {n : Nat} {p p' q q' : Position} (h : p.Delayed n p')
    (h' : q.Delayed n q') : p'.offset = q'.offset ↔ p.offset = q.offset := by
  obtain ⟨i, hp, hp'⟩ := h
  obtain ⟨j, hq, hq'⟩ := h'
  rw [hp, hp', hq, hq', Source.word, Source.word, Source.word, Source.word]
  omega

/-- The nodes are the same but for positions, and text stands `n` bytes further on in the second. -/
inductive Node.Delayed (n : Nat) : Node → Node → Prop where
  | text {content loc loc'} (hstart : loc.start.Delayed n loc'.start)
      (hstop : loc.stop.Delayed n loc'.stop) : Delayed n (.text content loc) (.text content loc')
  | other {a b} (ha : a.text? = none) (hab : a.unplaced = b.unplaced) : Delayed n a b

section Reading

variable {n front : Nat} {source source' : Source}

theorem Source.delayed_position (source source' : Source) (n i : Nat) :
    (source.position i).Delayed n (source'.position (n + i)) :=
  ⟨i, rfl, rfl⟩

namespace Node

variable {a b : Node} {as bs : List Node}

theorem text?_eq_none_of_unplaced_eq (h : a.unplaced = b.unplaced) (ha : a.text? = none) :
    b.text? = none := by
  cases b with
  | text content loc =>
    cases a with
    | text => cases ha
    | conditional condition consequent alternate loc => cases alternate <;> cases h
    | _ => cases h
  | _ => rfl

theorem Delayed.unplaced_eq (h : Delayed n a b) : a.unplaced = b.unplaced := by
  cases h with
  | text => rfl
  | other _ h => exact h

theorem unplaced_eq_of_delayed (h : List.Forall₂ (Delayed n) as bs) :
    as.map unplaced = bs.map unplaced := by
  induction h with
  | nil => rfl
  | cons h _ ih => rw [List.map_cons, List.map_cons, h.unplaced_eq, ih]

end Node

namespace Draft

theorem consText_cons_of_text? {node : Node} (h : node.text? = none) (content : String)
    (loc : Location) (ns : List Node) :
    consText content loc (node :: ns) = .text content loc :: node :: ns := by
  cases node with
  | text => cases h
  | _ => rfl

theorem consNode_of_text? {node : Node} (h : node.text? = none) (ns : List Node) :
    consNode node ns = node :: ns := by
  cases node with
  | text => cases h
  | _ => rfl

variable {ns ms before before' : List Node}

theorem consText_delayed {loc loc' : Location} (hstart : loc.start.Delayed n loc'.start)
    (hstop : loc.stop.Delayed n loc'.stop) (content : String)
    (h : List.Forall₂ (Node.Delayed n) ns ms) :
    List.Forall₂ (Node.Delayed n) (consText content loc ns) (consText content loc' ms) := by
  cases h with
  | nil => exact .cons (.text hstart hstop) .nil
  | cons hfirst hrest =>
    cases hfirst with
    | @text last lastLoc lastLoc' hstart' hstop' =>
      have htouch := hstop'.offset_eq_iff hstart
      by_cases h : lastLoc.stop.offset = loc.start.offset
      · simp only [consText, h, htouch.2 h, if_true]
        exact .cons (.text hstart' hstop) hrest
      · simp only [consText, h, mt htouch.1 h, if_false]
        exact .cons (.text hstart hstop) (.cons (.text hstart' hstop') hrest)
    | other ha hab =>
      have hb := Node.text?_eq_none_of_unplaced_eq hab ha
      rw [consText_cons_of_text? ha, consText_cons_of_text? hb]
      exact .cons (.text hstart hstop) (.cons (.other ha hab) hrest)

theorem consNode_delayed {a b : Node} (hab : a.Delayed n b)
    (h : List.Forall₂ (Node.Delayed n) ns ms) :
    List.Forall₂ (Node.Delayed n) (consNode a ns) (consNode b ms) := by
  cases hab with
  | text hstart hstop => exact consText_delayed hstart hstop _ h
  | other ha hab =>
    rw [consNode_of_text? ha, consNode_of_text? (Node.text?_eq_none_of_unplaced_eq hab ha)]
    exact .cons (.other ha hab) h

theorem splice_delayed (h : List.Forall₂ (Node.Delayed n) ns ms)
    (hbefore : List.Forall₂ (Node.Delayed n) before before') :
    List.Forall₂ (Node.Delayed n) (splice ns before) (splice ms before') := by
  induction h with
  | nil => exact hbefore
  | cons hab _ ih => exact consNode_delayed hab ih

/-- The runs are the same but for positions, with text `n` bytes further on in the second, and so are
the errors. -/
structure Delayed (n : Nat) (d d' : Draft) : Prop where
  nodes : List.Forall₂ (Node.Delayed n) d.nodes d'.nodes
  errors : d.errors.map TemplateError.unplaced = d'.errors.map TemplateError.unplaced

namespace Delayed

variable {d d' : Draft} (h : d.Delayed n d')

include h

theorem reverse_unplaced :
    d.nodes.reverse.map Node.unplaced = d'.nodes.reverse.map Node.unplaced := by
  rw [List.map_reverse, List.map_reverse, Node.unplaced_eq_of_delayed h.nodes]

theorem push {a b : Node} (ha : a.text? = none) (hab : a.unplaced = b.unplaced) :
    (d.push a).Delayed n (d'.push b) :=
  ⟨.cons (.other ha hab) h.nodes, h.errors⟩

theorem report (fault : TemplateFault) (loc loc' : Location) :
    (d.report fault loc).Delayed n (d'.report fault loc') := by
  refine ⟨h.nodes, ?_⟩
  simp only [Draft.report, List.map_cons, h.errors]
  rfl

theorem pushText (source source' : Source) (t : Token) :
    (d.pushText t.lexeme (source.location t.start t.stop)).Delayed n
      (d'.pushText t.lexeme (source'.location (t.later n).start (t.later n).stop)) := by
  rw [Token.stop_later]
  exact ⟨consText_delayed (source.delayed_position source' n _)
    (source.delayed_position source' n _) _ h.nodes, h.errors⟩

theorem stray (source source' : Source) (kind : Directive) (t : Token) :
    (d.stray source kind t).Delayed n (d'.stray source' kind (t.later n)) :=
  (h.report (.unexpectedCloser kind) _ _).pushText source source' t

theorem enter (source source' : Source) (kind : Directive) (args : String) (t : Token) :
    (d.enter source kind args t).1.Delayed n (d'.enter source' kind args (t.later n)).1 ∧
      (d.enter source kind args t).2 = (d'.enter source' kind args (t.later n)).2 := by
  cases kind with
  | openForeach =>
    simp only [Draft.enter, enterLoop]
    split
    · exact ⟨h, rfl⟩
    · exact ⟨h.report _ _ _, rfl⟩
  | openSection =>
    simp only [Draft.enter, enterSection]
    split
    · exact ⟨h.report _ _ _, rfl⟩
    · split
      · exact ⟨h.report _ _ _, rfl⟩
      · exact ⟨h, rfl⟩
      · exact ⟨h.push rfl rfl, rfl⟩
  | extendsLayout =>
    refine ⟨?_, rfl⟩
    simp only [Draft.enter, pushLayout]
    split
    · exact h.push rfl rfl
    · exact h.report _ _ _
  | yieldSection =>
    refine ⟨?_, rfl⟩
    simp only [Draft.enter, yieldNode]
    split <;> exact h.push rfl rfl
  | otherwise | endIf | endForeach | endError => exact ⟨h.stray source source' _ t, rfl⟩
  | openIf | openError | endSection => exact ⟨h, rfl⟩
  | includeView | csrf | asset | vite => exact ⟨h.push rfl rfl, rfl⟩

end Delayed

end Draft

inductive Opened.Alike : Opened → Opened → Prop where
  | refl (opened : Opened) : Alike opened opened
  | branch (condition : Expr) {consequent consequent' : List Node}
      (h : consequent.map Node.unplaced = consequent'.map Node.unplaced) :
      Alike (.conditional condition (some consequent)) (.conditional condition (some consequent'))

theorem Opened.Alike.opener_eq {opened opened' : Opened} (h : opened.Alike opened') :
    opened.opener = opened'.opener := by
  cases h <;> rfl

theorem Opened.Alike.stops_eq {opened opened' : Opened} (h : opened.Alike opened') :
    opened.stops = opened'.stops := by
  cases h <;> rfl

/-- The blocks are the same but for positions, with text `n` bytes further on in the second. What
stands in the first begins at `front` or behind it. -/
structure OpenBlock.Delayed (front n : Nat) (block block' : OpenBlock) : Prop where
  opened : block.opened.Alike block'.opened
  front_le : front ≤ block.stop
  stop : block'.stop = n + block.stop
  before : List.Forall₂ (Node.Delayed n) block.before block'.before

namespace OpenBlock

variable {opened opened' : Opened} {ns ms : List Node}

theorem unplaced_node (h : opened.Alike opened')
    (hbody : ns.map Node.unplaced = ms.map Node.unplaced) (inner : List Char)
    (loc loc' : Location) :
    (node opened ns inner loc).unplaced = (node opened' ms inner loc').unplaced := by
  have hmove (opened : Opened) (ns : List Node) (loc : Location) :
      (node opened ns inner loc).unplaced =
        node (opened.move fun _ => default) (ns.map Node.unplaced) inner ⟨default, default⟩ :=
    (node_move opened ns inner loc).symm
  rw [hmove, hmove, hbody]
  cases h with
  | refl => rfl
  | branch condition h =>
    have hbranch : List.map (Node.move fun _ => default) _ = _ := h
    simp only [Opened.move, Option.map_some, hbranch]
    rfl

theorem text?_node (opened : Opened) (body : List Node) (inner : List Char) (loc : Location) :
    (node opened body inner loc).text? = none := by
  cases opened with
  | conditional condition consequent => cases consequent <;> rfl
  | _ => rfl

namespace Delayed

variable {block block' : OpenBlock} {d d' : Draft} (h : block.Delayed front n block')
  (hd : d.Delayed n d')

include h hd

theorem close
    (hslice : ∀ i j, front ≤ i → source'.slice (n + i) (n + j) = source.slice i j) (t : Token) :
    (block.close source t d).Delayed n (block'.close source' (t.later n) d') := by
  have hinner : source'.slice block'.stop (t.later n).start = source.slice block.stop t.start := by
    rw [h.stop]
    exact hslice _ _ h.front_le
  refine ⟨.cons (.other (text?_node ..) ?_) h.before, hd.errors⟩
  rw [hinner]
  exact unplaced_node h.opened hd.reverse_unplaced _ _ _

theorem remains (source source' : Source) :
    List.Forall₂ (Node.Delayed n) (block.remains source d.nodes)
      (block'.remains source' d'.nodes) := by
  have hnode := unplaced_node h.opened hd.reverse_unplaced []
    (source.location block.start source.length) (source'.location block'.start source'.length)
  have halike := h.opened
  obtain ⟨opened, start, stop, before⟩ := block
  obtain ⟨opened', start', stop', before'⟩ := block'
  cases halike with
  | branch => exact .cons (.other (text?_node ..) hnode) .nil
  | refl =>
    cases opened with
    | errorBlock field => exact hd.nodes
    | _ => exact .cons (.other (text?_node ..) hnode) .nil

theorem abandon (source source' : Source) :
    (block.abandon source d).Delayed n (block'.abandon source' d') where
  nodes := by
    rw [nodes_abandon, nodes_abandon]
    exact Draft.splice_delayed (h.remains hd source source') h.before
  errors := by
    simp only [OpenBlock.abandon, List.map_cons, hd.errors, h.opened.opener_eq]
    rfl

theorem switch (source source' : Source) (t : Token) :
    (block.switch source t d).1.Delayed front n (block'.switch source' (t.later n) d').1 ∧
      (block.switch source t d).2.Delayed n (block'.switch source' (t.later n) d').2 := by
  have hreport := hd.report .duplicateElse (source.location t.start t.stop)
    (source'.location (t.later n).start (t.later n).stop)
  obtain ⟨opened, start, stop, before⟩ := block
  obtain ⟨opened', start', stop', before'⟩ := block'
  obtain ⟨halike, hfront, hstop, hbefore⟩ := h
  cases halike with
  | branch condition halike => exact ⟨⟨.branch condition halike, hfront, hstop, hbefore⟩, hreport⟩
  | refl =>
    cases opened with
    | conditional condition consequent =>
      cases consequent with
      | none =>
        exact ⟨⟨.branch condition hd.reverse_unplaced, hfront, hstop, hbefore⟩, .nil, hd.errors⟩
      | some consequent => exact ⟨⟨.refl _, hfront, hstop, hbefore⟩, hreport⟩
    | _ => exact ⟨⟨.refl _, hfront, hstop, hbefore⟩, hreport⟩

end Delayed

end OpenBlock

/-! ## Reading on -/

structure Builder.Delayed (front n : Nat) (b b' : Builder) : Prop where
  draft : b.draft.Delayed n b'.draft
  blocks : List.Forall₂ (OpenBlock.Delayed front n) b.blocks b'.blocks

namespace Builder

variable {b b' : Builder} {d d' : Draft} {blocks blocks' : List OpenBlock}

theorem stops_eq_of_delayed (h : List.Forall₂ (OpenBlock.Delayed front n) blocks blocks') :
    stops blocks' = stops blocks := by
  cases h with
  | nil => rfl
  | cons h _ => exact h.opened.stops_eq.symm

namespace Delayed

theorem takeOther (h : Delayed front n b b') (source source' : Source) (kind : Directive)
    (args : String) {t : Token} (ht : front ≤ t.start) :
    Delayed front n (takeOther source b kind args t) (takeOther source' b' kind args (t.later n)) := by
  obtain ⟨hdraft, hopened⟩ := h.draft.enter source source' kind args t
  unfold Builder.takeOther
  generalize b.draft.enter source kind args t = entered at hdraft hopened
  generalize b'.draft.enter source' kind args (t.later n) = entered' at hdraft hopened
  obtain ⟨d, opened⟩ := entered
  obtain ⟨d', opened'⟩ := entered'
  obtain rfl : opened = opened' := hopened
  cases opened with
  | none => exact ⟨hdraft, h.blocks⟩
  | some opened =>
    have hstop : front ≤ t.stop := Nat.le_trans ht (Nat.le_add_right _ _)
    exact ⟨⟨.nil, hdraft.errors⟩,
      .cons ⟨.refl opened, hstop, Token.stop_later n t, hdraft.nodes⟩ h.blocks⟩

variable (hslice : ∀ i j, front ≤ i → source'.slice (n + i) (n + j) = source.slice i j)

include hslice

theorem takeStop {block block' : OpenBlock} (hblock : block.Delayed front n block')
    (hd : d.Delayed n d') (houter : List.Forall₂ (OpenBlock.Delayed front n) blocks blocks')
    (kind : Directive) (t : Token) :
    Delayed front n (takeStop source d block blocks kind t)
      (takeStop source' d' block' blocks' kind (t.later n)) := by
  unfold Builder.takeStop
  split
  · obtain ⟨hswitched, hdraft⟩ := hblock.switch hd source source' t
    exact ⟨hdraft, .cons hswitched houter⟩
  · exact ⟨hblock.close hd hslice t, houter⟩

/-- Both may take a token, which stands `n` bytes further on in the second. -/
theorem take (h : Delayed front n b b') {t : Token} (ht : front ≤ t.start) :
    Delayed front n (take source b t) (take source' b' (t.later n)) := by
  cases hkind : t.kind with
  | text =>
    have hkind' : (t.later n).kind = .text := hkind
    simp only [Builder.take, hkind, hkind']
    exact ⟨h.draft.pushText source source' t, h.blocks⟩
  | interpolation escape content =>
    have hkind' : (t.later n).kind = .interpolation escape content := hkind
    simp only [Builder.take, hkind, hkind']
    exact ⟨h.draft.push rfl rfl, h.blocks⟩
  | directive kind args =>
    have hkind' : (t.later n).kind = .directive kind args := hkind
    obtain ⟨d, blocks⟩ := b
    obtain ⟨d', blocks'⟩ := b'
    have hstops : stops blocks' = stops blocks := stops_eq_of_delayed h.blocks
    by_cases hk : kind ∈ stops blocks
    · have hk' : kind ∈ stops blocks' := hstops ▸ hk
      obtain ⟨hdraft, hblocks⟩ := h
      cases hblocks with
      | nil => cases hk
      | cons hblock houter =>
        rw [take_stop hkind hk, take_stop hkind' hk']
        exact takeStop hslice hblock hdraft houter kind t
    · rw [take_other hkind hk, take_other hkind' (hstops ▸ hk)]
      exact h.takeOther source source' kind _ ht

theorem foldl {ts : List Token} (hts : ∀ t ∈ ts, front ≤ t.start) (h : Delayed front n b b') :
    Delayed front n (ts.foldl (Builder.take source) b)
      ((ts.map (Token.later n)).foldl (Builder.take source') b') := by
  induction ts generalizing b b' with
  | nil => exact h
  | cons t ts ih =>
    obtain ⟨ht, hall⟩ := List.forall_mem_cons.1 hts
    exact ih hall (h.take hslice ht)

omit hslice

theorem abandonAll (hd : d.Delayed n d')
    (h : List.Forall₂ (OpenBlock.Delayed front n) blocks blocks') (source source' : Source) :
    (abandonAll source d blocks).Delayed n (abandonAll source' d' blocks') := by
  induction h generalizing d d' with
  | nil => exact hd
  | cons hblock _ ih => exact ih (hblock.abandon hd source source')

end Delayed

end Builder

end Reading

/-! ## Directives before the same text -/

theorem Text.dropBytes_append_add (cs ds : List Char) (n : Nat) :
    dropBytes (byteLength cs + n) (cs ++ ds) = dropBytes n ds := by
  induction cs with
  | nil => simp
  | cons c cs ih =>
    have hpos := c.utf8Size_pos
    obtain ⟨k, hk⟩ : ∃ k, c.utf8Size + byteLength cs + n = k + 1 :=
      ⟨_, (Nat.succ_pred_eq_of_pos (by omega)).symm⟩
    have hsub : k + 1 - c.utf8Size = byteLength cs + n := by omega
    rw [List.cons_append, byteLength_cons, hk, dropBytes, hsub, ih]

theorem Source.slice_of_fronts {cs ds rest : List Char} {n i : Nat}
    (hn : byteLength ds = n + byteLength cs) (hi : byteLength cs ≤ i) (j : Nat) :
    (ofChars (ds ++ rest)).slice (n + i) (n + j) = (ofChars (cs ++ rest)).slice i j := by
  obtain ⟨k, rfl⟩ := Nat.exists_eq_add_of_le hi
  rw [slice, slice, Text.slice, Text.slice, Nat.add_sub_add_left, ← Nat.add_assoc, ← hn, ofChars,
    ofChars, dropBytes_append_add, dropBytes_append_add]

theorem Token.front_le_of_mem_laid {front : Nat} {ps : List Piece} {t : Token}
    (h : t ∈ laid front ps) : front ≤ t.start := by
  rw [← Nat.add_zero front, laid_later] at h
  obtain ⟨t, -, rfl⟩ := List.mem_map.1 h
  exact Nat.le_add_right _ _

/-- The text `front ++ rest` begins with a directive of which `front` is the lexeme, and which opens
a block. -/
structure Piece.Opens (m : Markers) (front rest : List Char) (opened : Opened) : Prop where
  exists_args : ∃ kind args,
    pieces m (front ++ rest) = .directive kind front (some args) :: pieces m rest ∧
      ∀ source t, Draft.empty.enter source kind (String.ofList args) t = (Draft.empty, some opened)

namespace Builder

variable {m : Markers} {front front' rest : List Char} {opened : Opened}

theorem read_of_opens (h : Piece.Opens m front rest opened) :
    read m (front ++ rest) =
      (Token.laid (byteLength front) (Piece.pieces m rest)).foldl
        (take (Source.ofChars (front ++ rest)))
        ⟨Draft.empty, [⟨opened, 0, byteLength front, []⟩]⟩ := by
  obtain ⟨kind, args, hpieces, henter⟩ := h
  have hstop : Token.stop ⟨0, front, .directive kind (some args)⟩ = byteLength front :=
    Nat.zero_add _
  have hkind : kind ∉ stops [] := List.not_mem_nil
  rw [read, ← Token.laid_pieces, hpieces, Token.laid_directive, List.foldl_cons,
    take_other rfl hkind, takeOther, Nat.zero_add]
  simp only [Option.getD_some, henter, hstop]
  rfl

theorem errors_of_opens (h : Piece.Opens m front rest opened) :
    Token.errors m (front ++ rest) =
      (Token.errors m rest).map (TokenError.later (byteLength front)) := by
  obtain ⟨kind, args, hpieces, -⟩ := h
  rw [Token.errors_eq_errorsFrom, Token.errors_eq_errorsFrom, hpieces,
    Token.errorsFrom_cons rfl, ← Token.errorsFrom_later, Nat.add_comm]
  rfl

theorem unplaced_of_le (h : Piece.Opens m front rest opened) (h' : Piece.Opens m front' rest opened)
    (hle : byteLength front ≤ byteLength front') :
    (parseTemplate m (String.ofList (front ++ rest))).unplaced =
      (parseTemplate m (String.ofList (front' ++ rest))).unplaced := by
  obtain ⟨n, hn⟩ := Nat.exists_eq_add_of_le' hle
  have hstart : Delayed (byteLength front) n
      ⟨Draft.empty, [⟨opened, 0, byteLength front, []⟩]⟩
      ⟨Draft.empty, [⟨opened, 0, byteLength front', []⟩]⟩ :=
    ⟨⟨.nil, rfl⟩, .cons ⟨.refl opened, Nat.le_refl _, hn, .nil⟩ .nil⟩
  have hlaid : Token.laid (byteLength front') (Piece.pieces m rest) =
      (Token.laid (byteLength front) (Piece.pieces m rest)).map (Token.later n) := by
    rw [hn, Token.laid_later]
  have hread : Delayed (byteLength front) n (read m (front ++ rest)) (read m (front' ++ rest)) := by
    rw [read_of_opens h, read_of_opens h', hlaid]
    exact hstart.foldl (fun i j hi => Source.slice_of_fronts hn hi j)
      fun t ht => Token.front_le_of_mem_laid ht
  have hbuilt : (built m (front ++ rest)).Delayed n (built m (front' ++ rest)) :=
    Delayed.abandonAll hread.draft hread.blocks _ _
  have hearly (source source' : Source) :
      ((Token.errors m (front ++ rest)).map (TokenError.located source)).map
          TemplateError.unplaced =
        ((Token.errors m (front' ++ rest)).map (TokenError.located source')).map
          TemplateError.unplaced := by
    simp only [errors_of_opens h, errors_of_opens h', List.map_map]
    rfl
  simp only [Parsed.unplaced, children_parseTemplate, errors_parseTemplate, String.toList_ofList,
    List.map_append, List.map_reverse, hbuilt.errors, Node.unplaced_eq_of_delayed hbuilt.nodes,
    hearly (Source.ofChars (front ++ rest)) (Source.ofChars (front' ++ rest))]

/-- A text behind two directives that open the same block is parsed to the same, but for
positions. -/
theorem unplaced_of_opens (h : Piece.Opens m front rest opened)
    (h' : Piece.Opens m front' rest opened) :
    (parseTemplate m (String.ofList (front ++ rest))).unplaced =
      (parseTemplate m (String.ofList (front' ++ rest))).unplaced := by
  rcases Nat.le_total (byteLength front) (byteLength front') with hle | hle
  · exact unplaced_of_le h h' hle
  · exact (unplaced_of_le h' h hle).symm

end Builder

end Templating
