import Templating.Proofs.Template.LineBoundary
import Templating.Proofs.Template.Placement

/-!
# A template at another place

When the text of a template stands so many bytes further on in another one, the positions there are
given by some function `σ` (`Source.Moved`). Reading the tokens of the template at their new places
then gives the same nodes, blocks and errors, with every position moved by `σ`
(`Builder.foldl_move`, `Builder.abandonAll_move`). Of two texts in a row, the first of which ends with
a line end, the first stands where it is (`Source.moved_front`), and the second so many bytes and lines
further on (`Source.moved_back`).
-/

namespace Templating

open Text

variable {σ : Position → Position}

/-! ## What is moved -/

def Location.move (σ : Position → Position) (loc : Location) : Location :=
  ⟨σ loc.start, σ loc.stop⟩

def TokenError.located (source : Source) (e : TokenError) : TemplateError :=
  ⟨e.fault.toFault, source.location e.start e.stop⟩

def TemplateError.move (σ : Position → Position) (e : TemplateError) : TemplateError :=
  { e with loc := e.loc.move σ }

namespace Node

mutual

/-- The node with all of its positions, and those in it, moved. -/
def move (σ : Position → Position) : Node → Node
  | .text content loc => .text content (loc.move σ)
  | .interpolation expr escape loc => .interpolation expr escape (loc.move σ)
  | .conditional condition consequent none loc =>
    .conditional condition (moveAll σ consequent) none (loc.move σ)
  | .conditional condition consequent (some alternate) loc =>
    .conditional condition (moveAll σ consequent) (some (moveAll σ alternate)) (loc.move σ)
  | .loop source key item body loc => .loop source key item (moveAll σ body) (loc.move σ)
  | .includeView view loc => .includeView view (loc.move σ)
  | .errorBlock field body oneLine loc => .errorBlock field (moveAll σ body) oneLine (loc.move σ)
  | .yieldSection name default loc => .yieldSection name default (loc.move σ)
  | .sectionBlock name body loc => .sectionBlock name (moveAll σ body) (loc.move σ)
  | .sectionValue name value loc => .sectionValue name value (loc.move σ)
  | .extendsLayout layout loc => .extendsLayout layout (loc.move σ)
  | .csrf loc => .csrf (loc.move σ)
  | .asset kind paths loc => .asset kind paths (loc.move σ)

def moveAll (σ : Position → Position) : List Node → List Node
  | [] => []
  | n :: ns => move σ n :: moveAll σ ns

end

theorem moveAll_eq_map (ns : List Node) : moveAll σ ns = ns.map (move σ) := by
  induction ns with
  | nil => rfl
  | cons n ns ih => rw [moveAll, ih, List.map_cons]

mutual

theorem move_id : ∀ n : Node, n.move id = n
  | .conditional condition consequent none loc => by rw [move, moveAll_id consequent]; rfl
  | .conditional condition consequent (some alternate) loc => by
    rw [move, moveAll_id consequent, moveAll_id alternate]; rfl
  | .loop source key item body loc => by rw [move, moveAll_id body]; rfl
  | .errorBlock field body oneLine loc => by rw [move, moveAll_id body]; rfl
  | .sectionBlock name body loc => by rw [move, moveAll_id body]; rfl
  | .text .. | .interpolation .. | .includeView .. | .yieldSection .. | .sectionValue ..
  | .extendsLayout .. | .csrf .. | .asset .. => rfl

theorem moveAll_id : ∀ ns : List Node, moveAll id ns = ns
  | [] => rfl
  | n :: ns => by rw [moveAll, move_id n, moveAll_id ns]

end

theorem isBlock_move (n : Node) : (n.move σ).isBlock = n.isBlock := by
  cases n with
  | conditional condition consequent alternate loc => cases alternate <;> rfl
  | _ => rfl

end Node

def Opened.move (σ : Position → Position) : Opened → Opened
  | .conditional condition consequent =>
    .conditional condition (consequent.map (List.map (Node.move σ)))
  | opened => opened

/-- The block so many bytes further on. -/
def OpenBlock.move (σ : Position → Position) (n : Nat) (block : OpenBlock) : OpenBlock :=
  ⟨block.opened.move σ, n + block.start, n + block.stop, block.before.map (Node.move σ)⟩

def Draft.move (σ : Position → Position) (d : Draft) : Draft :=
  ⟨d.nodes.map (Node.move σ), d.errors.map (TemplateError.move σ)⟩

def Builder.move (σ : Position → Position) (n : Nat) (b : Builder) : Builder :=
  ⟨b.draft.move σ, b.blocks.map (OpenBlock.move σ n)⟩

/-- In `source` the text `cs` stands `n` bytes further on, and its positions there are given by `σ`,
which keeps apart what is apart. -/
structure Source.Moved (cs : List Char) (source : Source) (n : Nat) (σ : Position → Position) :
    Prop where
  position : ∀ offset ≤ byteLength cs,
    source.position (n + offset) = σ ((ofChars cs).position offset)
  slice : ∀ start stop, StandsAt 0 cs [] start → StandsAt 0 cs [] stop →
    source.slice (n + start) (n + stop) = (ofChars cs).slice start stop
  offset : ∀ p q, (σ p).offset = (σ q).offset ↔ p.offset = q.offset

theorem Source.Moved.location {cs : List Char} {source : Source} {n start stop : Nat}
    (h : source.Moved cs n σ) (hstart : start ≤ byteLength cs) (hstop : stop ≤ byteLength cs) :
    source.location (n + start) (n + stop) = ((ofChars cs).location start stop).move σ := by
  rw [Source.location, h.position _ hstart, h.position _ hstop]
  rfl

theorem TokenError.located_later {cs : List Char} {source : Source} {n : Nat}
    (hm : source.Moved cs n σ) {m : Markers} {e : TokenError} (he : e ∈ Token.errors m cs) :
    (e.later n).located source = (e.located (Source.ofChars cs)).move σ := by
  rw [Token.errors_eq_errorsFrom] at he
  have hstop : e.stop = byteLength cs := by
    rw [(Token.errorsFrom_pieces m cs 0).2 e he, Nat.zero_add]
  have hstart := Token.start_le_of_mem_errorsFrom he
  have hloc := hm.location (hstop ▸ hstart) (Nat.le_of_eq hstop)
  rw [located, located, later, hloc]
  rfl

/-! ## Nodes and blocks -/

section Reading

variable {cs : List Char} {source : Source} {n : Nat} {t : Token}

theorem Token.stop_later (n : Nat) (t : Token) : (t.later n).stop = n + t.stop :=
  Nat.add_assoc _ _ _

namespace Draft

variable (hm : source.Moved cs n σ)

include hm

theorem consText_move (content : String) (loc : Location) (ns : List Node) :
    consText content (loc.move σ) (ns.map (Node.move σ)) =
      (consText content loc ns).map (Node.move σ) := by
  cases ns with
  | nil => rfl
  | cons last ns =>
    cases last with
    | text last lastLoc =>
      have htouch := hm.offset lastLoc.stop loc.start
      by_cases h : lastLoc.stop.offset = loc.start.offset
      · simp only [List.map_cons, Node.move, consText, Location.move, htouch.2 h, h, if_true]
      · simp only [List.map_cons, Node.move, consText, Location.move, mt htouch.1 h, h, if_false]
    | conditional condition consequent alternate loc => cases alternate <;> rfl
    | _ => rfl

theorem consNode_move (node : Node) (ns : List Node) :
    consNode (node.move σ) (ns.map (Node.move σ)) = (consNode node ns).map (Node.move σ) := by
  cases node with
  | text content loc => exact consText_move hm content loc ns
  | conditional condition consequent alternate loc => cases alternate <;> rfl
  | _ => rfl

theorem foldr_consNode_move (ms ns : List Node) :
    (ms.map (Node.move σ)).foldr consNode (ns.map (Node.move σ)) =
      (ms.foldr consNode ns).map (Node.move σ) := by
  induction ms with
  | nil => rfl
  | cons m ms ih => rw [List.map_cons, List.foldr_cons, ih, consNode_move hm, List.foldr_cons]

theorem pushText_move (d : Draft) (chars : List Char) (loc : Location) :
    (d.move σ).pushText chars (loc.move σ) = (d.pushText chars loc).move σ := by
  simp only [pushText, move, consText_move hm]

variable (ht : t.Stands cs)

include ht

theorem location_later :
    source.location (t.later n).start (t.later n).stop =
      ((Source.ofChars cs).location t.start t.stop).move σ := by
  rw [Token.stop_later]
  exact hm.location (Nat.le_trans (Nat.le_of_lt ht.start_lt_stop) ht.stop_le) ht.stop_le

theorem stray_move (d : Draft) (kind : Directive) :
    (d.move σ).stray source kind (t.later n) = (d.stray (Source.ofChars cs) kind t).move σ := by
  rw [stray, location_later hm ht]
  exact pushText_move hm (d.report _ _) _ _

theorem enter_move (d : Draft) (kind : Directive) (args : String) :
    (d.move σ).enter source kind args (t.later n) =
      ((d.enter (Source.ofChars cs) kind args t).1.move σ,
        (d.enter (Source.ofChars cs) kind args t).2.map (Opened.move σ)) := by
  have hloc := location_later hm ht
  cases kind with
  | openForeach =>
    simp only [enter, enterLoop, hloc]
    split <;> rfl
  | openSection =>
    simp only [enter, enterSection, hloc]
    split
    · rfl
    · split <;> rfl
  | extendsLayout =>
    simp only [enter, pushLayout, hloc]
    split <;> rfl
  | yieldSection =>
    simp only [enter, yieldNode, hloc]
    split <;> rfl
  | otherwise | endIf | endForeach | endError =>
    simp only [enter, stray_move hm ht]
    rfl
  | _ =>
    simp only [enter, hloc]
    rfl

end Draft

namespace OpenBlock

theorem isOneLine_move (inner : List Char) (body : List Node) :
    isOneLine inner (body.map (Node.move σ)) = isOneLine inner body := by
  have hblocks : (body.map (Node.move σ)).any Node.isBlock = body.any Node.isBlock := by
    rw [List.any_map]
    exact congrArg body.any (funext Node.isBlock_move)
  simp only [isOneLine, hblocks]

theorem node_move (opened : Opened) (body : List Node) (inner : List Char) (loc : Location) :
    node (opened.move σ) (body.map (Node.move σ)) inner (loc.move σ) =
      (node opened body inner loc).move σ := by
  cases opened with
  | conditional condition consequent =>
    cases consequent <;> simp [Opened.move, node, Node.move, Node.moveAll_eq_map]
  | errorBlock field =>
    simp [Opened.move, node, Node.move, Node.moveAll_eq_map, isOneLine_move]
  | _ => simp [Opened.move, node, Node.move, Node.moveAll_eq_map]

/-- The block begins between two characters of the template, and so does what stands in it. -/
structure Anchored (cs : List Char) (block : OpenBlock) : Prop where
  start : StandsAt 0 cs [] block.start
  stop : StandsAt 0 cs [] block.stop

end OpenBlock

theorem Text.StandsAt.le {i : Nat} (h : StandsAt 0 cs [] i) : i ≤ byteLength cs := by
  obtain ⟨before, after, rfl, rfl⟩ := h
  simp only [byteLength_append]
  omega

theorem Token.Stands.boundaries (ht : t.Stands cs) :
    StandsAt 0 cs [] t.start ∧ StandsAt 0 cs [] t.stop := by
  have hstart : StandsAt 0 cs ([] ++ [] ++ t.lexeme) t.start := ht.standsAt
  have hstop : StandsAt 0 cs (t.lexeme ++ [] ++ []) t.start := by
    simpa using ht.standsAt
  exact ⟨hstart.part, hstop.part⟩

namespace OpenBlock

variable {block : OpenBlock} (hm : source.Moved cs n σ) (hb : block.Anchored cs)

include hm hb

theorem close_move (ht : t.Stands cs) (d : Draft) :
    (block.move σ n).close source (t.later n) (d.move σ) =
      (block.close (Source.ofChars cs) t d).move σ := by
  obtain ⟨hstart, hstop⟩ := ht.boundaries
  have hinner : source.slice (n + block.stop) (t.later n).start =
      (Source.ofChars cs).slice block.stop t.start := hm.slice _ _ hb.stop hstart
  have hloc : source.location (n + block.start) (t.later n).stop =
      ((Source.ofChars cs).location block.start t.stop).move σ := by
    rw [Token.stop_later]
    exact hm.location hb.start.le hstop.le
  simp only [close, move, hinner, hloc, Draft.move, ← List.map_reverse, node_move, List.map_cons]

theorem remains_move (hlength : source.length = n + byteLength cs) (ns : List Node) :
    (block.move σ n).remains source (ns.map (Node.move σ)) =
      (block.remains (Source.ofChars cs) ns).map (Node.move σ) := by
  have hloc : source.location (n + block.start) source.length =
      ((Source.ofChars cs).location block.start (byteLength cs)).move σ := by
    rw [hlength]
    exact hm.location hb.start.le (Nat.le_refl _)
  have hnode : node (block.opened.move σ) (ns.reverse.map (Node.move σ)) []
      (((Source.ofChars cs).location block.start (byteLength cs)).move σ) = _ := node_move _ _ _ _
  rw [← hloc] at hnode
  obtain ⟨opened, start, stop, before⟩ := block
  cases opened with
  | errorBlock field => rfl
  | _ =>
    simp only [remains, move, Opened.move, ← List.map_reverse, List.map_cons, List.map_nil] at hnode ⊢
    rw [hnode]
    rfl

theorem abandon_move (hlength : source.length = n + byteLength cs) (d : Draft) :
    (block.move σ n).abandon source (d.move σ) = (block.abandon (Source.ofChars cs) d).move σ := by
  have hlocs : source.location (n + block.start) (n + block.stop) =
      ((Source.ofChars cs).location block.start block.stop).move σ :=
    hm.location hb.start.le hb.stop.le
  have hopener : (block.opened.move σ).opener = block.opened.opener := by
    cases block.opened <;> rfl
  have hnodes : ((block.move σ n).abandon source (d.move σ)).nodes =
      (block.abandon (Source.ofChars cs) d).nodes.map (Node.move σ) := by
    rw [nodes_abandon, nodes_abandon, Draft.splice, Draft.splice, ← Draft.foldr_consNode_move hm,
      ← remains_move hm hb hlength]
    rfl
  have herrors : ((block.move σ n).abandon source (d.move σ)).errors =
      (block.abandon (Source.ofChars cs) d).errors.map (TemplateError.move σ) := by
    simp only [abandon, move, Draft.move, hlocs, hopener, List.map_cons]
    rfl
  rcases habandon : (block.move σ n).abandon source (d.move σ) with ⟨nodes, errors⟩
  rw [habandon] at hnodes herrors
  obtain rfl : nodes = _ := hnodes
  obtain rfl : errors = _ := herrors
  rfl

omit hb

theorem switch_move (ht : t.Stands cs) (d : Draft) :
    (block.move σ n).switch source (t.later n) (d.move σ) =
      ((block.switch (Source.ofChars cs) t d).1.move σ n,
        (block.switch (Source.ofChars cs) t d).2.move σ) := by
  have hloc := Draft.location_later hm ht
  obtain ⟨opened, start, stop, before⟩ := block
  cases opened with
  | conditional condition consequent =>
    cases consequent with
    | none => simp [switch, move, Opened.move, Draft.move]
    | some consequent =>
      simp only [switch, move, Opened.move, Option.map_some, hloc]
      rfl
  | _ =>
    simp only [switch, move, Opened.move, hloc]
    rfl

end OpenBlock

namespace Builder

variable (hm : source.Moved cs n σ)

theorem stops_move (blocks : List OpenBlock) :
    stops (blocks.map (OpenBlock.move σ n)) = stops blocks := by
  cases blocks with
  | nil => rfl
  | cons block outer =>
    obtain ⟨opened, start, stop, before⟩ := block
    cases opened <;> rfl

include hm

theorem takeOther_move (ht : t.Stands cs) (b : Builder) (kind : Directive) (args : String) :
    takeOther source (b.move σ n) kind args (t.later n) =
      (takeOther (Source.ofChars cs) b kind args t).move σ n := by
  have henter := Draft.enter_move hm ht b.draft kind args
  simp only [takeOther, move, henter]
  rcases b.draft.enter (Source.ofChars cs) kind args t with ⟨d, opened⟩
  cases opened with
  | none => rfl
  | some opened =>
    simp only [Option.map_some, Token.stop_later]
    rfl

theorem takeStop_move (ht : t.Stands cs) {block : OpenBlock} (hb : block.Anchored cs) (d : Draft)
    (outer : List OpenBlock) (kind : Directive) :
    takeStop source (d.move σ) (block.move σ n) (outer.map (OpenBlock.move σ n)) kind (t.later n) =
      (takeStop (Source.ofChars cs) d block outer kind t).move σ n := by
  unfold takeStop
  split
  · rw [OpenBlock.switch_move hm ht]
    rfl
  · rw [OpenBlock.close_move hm hb ht]
    rfl

/-- Reading a token commutes with moving it. -/
theorem take_move (ht : t.Stands cs) {b : Builder} (hb : ∀ block ∈ b.blocks, block.Anchored cs) :
    take source (b.move σ n) (t.later n) = (take (Source.ofChars cs) b t).move σ n := by
  have hloc := Draft.location_later hm ht
  obtain ⟨d, blocks⟩ := b
  cases hkind : t.kind with
  | text =>
    have hkind' : (t.later n).kind = .text := hkind
    simp only [take, hkind, hkind', move, hloc]
    rw [← Draft.pushText_move hm]
    rfl
  | interpolation escape content =>
    have hkind' : (t.later n).kind = .interpolation escape content := hkind
    simp only [take, hkind, hkind', move, hloc]
    rfl
  | directive kind args =>
    have hkind' : (t.later n).kind = .directive kind args := hkind
    by_cases hk : kind ∈ stops blocks
    · cases blocks with
      | nil => cases hk
      | cons block outer =>
        have hk' : kind ∈ (block.move σ n).opened.stops := by
          have hstops : (block.move σ n).opened.stops = block.opened.stops :=
            stops_move (block :: outer)
          rw [hstops]
          exact hk
        rw [take_stop hkind hk, move, List.map_cons, take_stop hkind' hk',
          takeStop_move hm ht (hb block List.mem_cons_self)]
    · have hk' : kind ∉ stops (blocks.map (OpenBlock.move σ n)) := by
        rwa [stops_move]
      rw [take_other hkind hk, move, take_other hkind' hk']
      exact takeOther_move hm ht ⟨d, blocks⟩ kind _

omit hm

theorem anchored_take (source : Source) (ht : t.Stands cs) {b : Builder}
    (hb : ∀ block ∈ b.blocks, block.Anchored cs) :
    ∀ block ∈ (take source b t).blocks, block.Anchored cs := by
  obtain ⟨d, blocks⟩ := b
  cases hkind : t.kind with
  | text => simpa only [take, hkind] using hb
  | interpolation escape content => simpa only [take, hkind] using hb
  | directive kind args =>
    by_cases hk : kind ∈ stops blocks
    · cases blocks with
      | nil => cases hk
      | cons block outer =>
        obtain ⟨hblock, houter⟩ := List.forall_mem_cons.1 hb
        rw [take_stop hkind hk, takeStop]
        split
        · refine List.forall_mem_cons.2 ⟨?_, houter⟩
          unfold OpenBlock.switch
          split
          · exact ⟨hblock.start, hblock.stop⟩
          · exact hblock
        · exact houter
    · rw [take_other hkind hk, takeOther]
      rcases d.enter source kind (String.ofList (args.getD [])) t with ⟨d', opened⟩
      cases opened with
      | none => exact hb
      | some opened =>
        exact List.forall_mem_cons.2 ⟨⟨ht.boundaries.1, ht.boundaries.2⟩, hb⟩

theorem anchored_foldl (source : Source) {ts : List Token} (hts : ∀ t ∈ ts, t.Stands cs)
    {b : Builder} (hb : ∀ block ∈ b.blocks, block.Anchored cs) :
    ∀ block ∈ (ts.foldl (take source) b).blocks, block.Anchored cs := by
  induction ts generalizing b with
  | nil => exact hb
  | cons t ts ih =>
    obtain ⟨ht, hall⟩ := List.forall_mem_cons.1 hts
    exact ih hall (anchored_take source ht hb)

theorem foldl_move (hm : source.Moved cs n σ) {ts : List Token} (hts : ∀ t ∈ ts, t.Stands cs)
    {b : Builder} (hb : ∀ block ∈ b.blocks, block.Anchored cs) :
    (ts.map (Token.later n)).foldl (take source) (b.move σ n) =
      (ts.foldl (take (Source.ofChars cs)) b).move σ n := by
  induction ts generalizing b with
  | nil => rfl
  | cons t ts ih =>
    obtain ⟨ht, hall⟩ := List.forall_mem_cons.1 hts
    rw [List.map_cons, List.foldl_cons, List.foldl_cons, take_move hm ht hb,
      ih hall (anchored_take (Source.ofChars cs) ht hb)]

/-- Ending the open blocks commutes with moving them, when the two templates end together. -/
theorem abandonAll_move (hm : source.Moved cs n σ) (hlength : source.length = n + byteLength cs)
    {blocks : List OpenBlock} (hb : ∀ block ∈ blocks, block.Anchored cs) (d : Draft) :
    abandonAll source (d.move σ) (blocks.map (OpenBlock.move σ n)) =
      (abandonAll (Source.ofChars cs) d blocks).move σ := by
  induction blocks generalizing d with
  | nil => rfl
  | cons block outer ih =>
    obtain ⟨hblock, houter⟩ := List.forall_mem_cons.1 hb
    rw [List.map_cons, abandonAll_cons, abandonAll_cons,
      OpenBlock.abandon_move hm hblock hlength, ih houter]

end Builder

end Reading

/-! ## Two texts in a row -/

/-- The position in a text that stands behind so many bytes with so many line ends, the last of which
stands right before it. The number of the line is counted in 32 bits. -/
def Position.shift (bytes lines : Nat) (p : Position) : Position where
  offset := p.offset + bytes
  line := Source.word (p.line + lines)
  column := p.column

theorem newlinesFrom_add (n offset : Nat) (cs : List Char) :
    newlinesFrom (n + offset) cs = (newlinesFrom offset cs).map (n + ·) := by
  induction cs generalizing offset with
  | nil => rfl
  | cons c cs ih =>
    rw [newlinesFrom, newlinesFrom, Nat.add_assoc, ih, List.map_append]
    split <;> rfl

theorem length_newlinesFrom (offset : Nat) (cs : List Char) :
    (newlinesFrom offset cs).length = cs.count '\n' := by
  induction cs generalizing offset with
  | nil => rfl
  | cons c cs ih =>
    rw [newlinesFrom, List.length_append, ih, List.count_cons]
    by_cases hc : c = '\n' <;> simp [hc, Nat.add_comm]

namespace Source

variable {a b : List Char}

theorem position_append {offset : Nat} (h : offset ≤ byteLength a) :
    (ofChars (a ++ b)).position offset = (ofChars a).position offset := by
  have hbehind : (newlinesFrom (0 + byteLength a) b).takeWhile (· < offset) = [] := by
    cases hb : newlinesFrom (0 + byteLength a) b with
    | nil => rfl
    | cons i is =>
      have hi := (bounds_of_mem_newlinesFrom (hb ▸ List.mem_cons_self : i ∈ newlinesFrom _ b)).1
      rw [List.takeWhile_cons_of_neg]
      simp only [decide_eq_true_eq]
      omega
  have hbefore : (newlinesFrom 0 (a ++ b)).takeWhile (· < offset) =
      (newlinesFrom 0 a).takeWhile (· < offset) := by
    rw [newlinesFrom_append, List.takeWhile_append, hbehind, List.append_nil]
    split
    · rename_i hlength
      exact (List.takeWhile_prefix _).eq_of_length hlength |>.symm
    · rfl
  rw [position_ofChars, position_ofChars, hbefore]

theorem word_add_word (m n : Nat) : word (word m + n) = word (m + n) :=
  Nat.mod_add_mod _ _ _

theorem takeWhile_newlinesFrom_append (a b : List Char) (offset : Nat) :
    (newlinesFrom 0 (a ++ b)).takeWhile (· < byteLength a + offset) =
      newlinesFrom 0 a ++ ((newlinesFrom 0 b).takeWhile (· < offset)).map (byteLength a + ·) := by
  have hfirst : ∀ i ∈ newlinesFrom 0 a, decide (i < byteLength a + offset) = true := by
    intro i hi
    have := (bounds_of_mem_newlinesFrom hi).2
    simp only [decide_eq_true_eq]
    omega
  have hsecond : newlinesFrom (0 + byteLength a) b = (newlinesFrom 0 b).map (byteLength a + ·) := by
    rw [Nat.add_comm, newlinesFrom_add]
  have hclass : (fun i => decide (i < byteLength a + offset)) ∘ (byteLength a + ·) =
      fun i => decide (i < offset) := by
    funext i
    simp
  rw [newlinesFrom_append, List.takeWhile_append_of_pos hfirst, hsecond, List.takeWhile_map, hclass]

/-- Behind a line end the lines are counted on and the columns begin anew. -/
theorem position_add (ha : EndsLine a) (hsize : byteLength (a ++ b) < 4294967296) {offset : Nat}
    (h : offset ≤ byteLength b) :
    (ofChars (a ++ b)).position (byteLength a + offset) =
      ((ofChars b).position offset).shift (byteLength a) (a.count '\n') := by
  have hlast : ∃ last, (newlinesFrom 0 a).getLast? = some last ∧ byteLength a = last + 1 := by
    obtain ⟨front, rfl⟩ := List.getLast?_eq_some_iff.1 ha
    refine ⟨byteLength front, ?_, by rw [byteLength_append]; rfl⟩
    rw [newlinesFrom_append, Nat.zero_add]
    exact List.getLast?_concat
  have hoffset : word (byteLength a + offset) = word offset + byteLength a := by
    rw [byteLength_append] at hsize
    rw [word, word, Nat.mod_eq_of_lt (by omega), Nat.mod_eq_of_lt (by omega), Nat.add_comm]
  obtain ⟨last, hlast, hbytes⟩ := hlast
  rw [position_ofChars, position_ofChars, takeWhile_newlinesFrom_append]
  simp only [Position.shift]
  generalize (newlinesFrom 0 b).takeWhile (· < offset) = before
  refine congr (congr (congrArg Position.mk hoffset) ?_) ?_
  · rw [word_add_word, List.length_append, List.length_map, length_newlinesFrom]
    exact congrArg word (by omega)
  · cases hbefore : before.getLast? with
    | none =>
      obtain rfl := List.getLast?_eq_none_iff.1 hbefore
      simp only [List.map_nil, List.append_nil, hlast, Option.elim_some, Option.elim_none]
      exact congrArg word (by omega)
    | some i =>
      have hne : before ≠ [] := by
        rintro rfl
        cases hbefore
      rw [List.getLast?_append_of_ne_nil _ (by simpa using hne), List.getLast?_map, hbefore]
      exact congrArg word (Nat.add_sub_add_left _ _ _)

theorem moved_front (a b : List Char) : (ofChars (a ++ b)).Moved a 0 id where
  position := fun offset h => by rw [Nat.zero_add, position_append h, id]
  slice := by
    intro start stop hstart hstop
    obtain ⟨before, after, hbefore, rfl⟩ := hstart
    obtain ⟨before', after', hbefore', rfl⟩ := hstop
    simp only [Nat.zero_add, List.append_nil] at *
    rcases Nat.le_total (byteLength before) (byteLength before') with hle | hle
    · obtain ⟨mid, rfl, rfl⟩ := exists_of_append_eq (hbefore.symm.trans hbefore') hle
      have hmid (after : List Char) : Text.slice (before ++ mid ++ after) (byteLength before)
          (byteLength (before ++ mid)) = mid := by
        rw [byteLength_append, slice_append]
      have hwhole := hmid (after' ++ b)
      rw [← List.append_assoc] at hwhole
      rw [hbefore']
      exact hwhole.trans (hmid after').symm
    · rw [slice, slice, Text.slice, Text.slice, Nat.sub_eq_zero_of_le hle, takeBytes_zero,
        takeBytes_zero]
  offset := fun _ _ => Iff.rfl

theorem moved_back (ha : EndsLine a) (hsize : byteLength (a ++ b) < 4294967296) :
    (ofChars (a ++ b)).Moved b (byteLength a)
      (Position.shift (byteLength a) (a.count '\n')) where
  position := fun offset h => position_add ha hsize h
  slice := by
    intro start stop hstart _
    obtain ⟨before, after, rfl, rfl⟩ := hstart
    rw [slice, slice, Text.slice, Text.slice, Nat.add_sub_add_left, Nat.zero_add, ofChars, ofChars,
      List.append_nil, dropBytes_byteLength_append, ← byteLength_append, ← List.append_assoc,
      dropBytes_byteLength_append]
  offset := fun p q => Nat.add_right_cancel_iff

end Source

end Templating
