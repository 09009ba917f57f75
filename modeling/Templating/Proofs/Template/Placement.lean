import Templating.Proofs.Template.Recovery
import Templating.Proofs.Template.Rows

/-!
# The tree keeps the source

Every node of a parsed template sits where its location says, and the text of the tree is that of the
text tokens and of the closing directives that close nothing, each character at its place
(`tree_keeps_source`).

Nodes are moved while a template is parsed. A run that is read in an error block joins the one around
it, a branch is put aside when the other one begins, and text joins the text before it. So what is
kept from token to token is said of the open blocks as they stand (`Builder.Laid`): each run begins
where its block does, and the run that holds the block ends there.
-/

namespace Templating

open Text Node

/-! ## Open blocks -/

def Opened.branch : Opened → List Node
  | .conditional _ (some consequent) => consequent
  | _ => []

/-- How a directive that ends no run is taken: it opens a block, it adds a node without text at its
place, it is dropped, or it stays as text. Only in the last case it is a fault of order. -/
inductive Draft.Entered (source : Source) (d : Draft) (t : Token) : Draft × Option Opened → Prop where
  | opens {d' opened} (hnodes : d'.nodes = d.nodes) (hbranch : opened.branch = [])
      (herrors : structuralErrors d'.errors = structuralErrors d.errors) :
      Entered source d t (d', some opened)
  | adds {n} (hloc : n.location = source.location t.start t.stop) (hsits : ∀ cs, Sits cs n)
      (htexts : textsOf n = []) (hcons : ∀ ns, consNode n ns = n :: ns) :
      Entered source d t (d.push n, none)
  | drops {d'} (hnodes : d'.nodes = d.nodes)
      (herrors : structuralErrors d'.errors = structuralErrors d.errors) :
      Entered source d t (d', none)
  | stray {kind} : Entered source d t (d.stray source kind t, none)

theorem Draft.entered (source : Source) (d : Draft) (kind : Directive) (args : String) (t : Token) :
    Entered source d t (d.enter source kind args t) := by
  cases kind with
  | openIf => exact .opens rfl rfl rfl
  | openError => exact .opens rfl rfl rfl
  | openForeach =>
    simp only [enter, enterLoop]
    split
    · exact .opens rfl rfl rfl
    · exact .opens rfl rfl rfl
  | openSection =>
    simp only [enter, enterSection]
    split
    · exact .drops rfl rfl
    · split
      · exact .drops rfl rfl
      · exact .opens rfl rfl rfl
      · exact .adds rfl (fun _ => trivial) rfl fun _ => rfl
  | extendsLayout =>
    simp only [enter, pushLayout]
    split
    · exact .adds rfl (fun _ => trivial) rfl fun _ => rfl
    · exact .drops rfl rfl
  | yieldSection =>
    simp only [enter, yieldNode]
    split <;> exact .adds rfl (fun _ => trivial) rfl fun _ => rfl
  | includeView => exact .adds rfl (fun _ => trivial) rfl fun _ => rfl
  | csrf => exact .adds rfl (fun _ => trivial) rfl fun _ => rfl
  | asset => exact .adds rfl (fun _ => trivial) rfl fun _ => rfl
  | vite => exact .adds rfl (fun _ => trivial) rfl fun _ => rfl
  | endSection => exact .drops rfl rfl
  | otherwise => exact .stray
  | endIf => exact .stray
  | endForeach => exact .stray
  | endError => exact .stray

namespace OpenBlock

variable {cs : List Char} {mid : Nat} {body : List Node} {loc : Location}

theorem location_node (opened : Opened) (body : List Node) (inner : List Char) (loc : Location) :
    (node opened body inner loc).location = loc := by
  cases opened with
  | conditional condition consequent => cases consequent <;> rfl
  | _ => rfl

theorem textsOf_node (opened : Opened) (body : List Node) (inner : List Char) (loc : Location) :
    textsOf (node opened body inner loc) = texts opened.branch ++ texts body := by
  cases opened with
  | conditional condition consequent => cases consequent <;> rfl
  | _ => rfl

theorem sits_node {opened : Opened} (hbranch : Placed cs loc.start.offset mid opened.branch)
    (hbody : Placed cs mid loc.stop.offset body) (inner : List Char) :
    Sits cs (node opened body inner loc) := by
  have hwhole : Placed cs loc.start.offset loc.stop.offset body := hbody.mono_left hbranch.1.le
  cases opened with
  | conditional condition consequent =>
    cases consequent with
    | none => exact hwhole
    | some consequent => exact ⟨mid, hbranch, hbody⟩
  | _ => exact hwhole

end OpenBlock

namespace Builder

/-- The run `nodes` in the innermost of `blocks` goes up to `hi`, each block begins where the run that
holds it ends, and what the tree has of the text so far is `out`. -/
def Laid (cs : List Char) : List OpenBlock → List Node → Nat → List (Nat × Char) → Prop
  | [], nodes, hi, out => Placed cs 0 hi nodes.reverse ∧ texts nodes.reverse = out
  | block :: outer, nodes, hi, out =>
    ∃ mid before, Laid cs outer block.before block.start before ∧
      Placed cs block.start mid block.opened.branch ∧ Placed cs mid hi nodes.reverse ∧
      before ++ (texts block.opened.branch ++ texts nodes.reverse) = out

namespace Laid

variable {cs : List Char} {blocks outer : List OpenBlock} {block : OpenBlock} {nodes ms : List Node}
  {hi hi' : Nat} {out : List (Nat × Char)}

theorem mono (h : Laid cs blocks nodes hi out) (hle : hi ≤ hi') : Laid cs blocks nodes hi' out := by
  cases blocks with
  | nil => exact ⟨h.1.mono_right hle, h.2⟩
  | cons block outer =>
    obtain ⟨mid, before, houter, hbranch, hrun, hout⟩ := h
    exact ⟨mid, before, houter, hbranch, hrun.mono_right hle, hout⟩

theorem splice (h : Laid cs blocks nodes hi out) (hms : Placed cs hi hi' ms.reverse) :
    Laid cs blocks (Draft.splice ms nodes) hi' (out ++ texts ms.reverse) := by
  cases blocks with
  | nil =>
    obtain ⟨hrun, rfl⟩ := h
    exact hrun.splice hms
  | cons block outer =>
    obtain ⟨mid, before, houter, hbranch, hrun, rfl⟩ := h
    obtain ⟨hplaced, htexts⟩ := hrun.splice hms
    exact ⟨mid, before, houter, hbranch, hplaced, by rw [htexts]; simp only [List.append_assoc]⟩

theorem consNode {n : Node} (h : Laid cs blocks nodes hi out) (hn : Next cs hi n) :
    Laid cs blocks (Draft.consNode n nodes) n.location.stop.offset (out ++ textsOf n) := by
  have hplaced : Placed cs hi n.location.stop.offset [n].reverse :=
    Placed.reverse_cons.2 ⟨.nil hn.start, hn.le, Nat.le_refl _, fun _ h => (by cases h), hn.sits⟩
  have hlaid := h.splice hplaced
  rwa [List.reverse_singleton, texts, texts, List.append_nil] at hlaid

theorem openBlock {opened : Opened} {start : Nat} (h : Laid cs blocks nodes hi out)
    (hbranch : opened.branch = []) (hstart : hi ≤ start) (hle : start ≤ hi') (stop : Nat) :
    Laid cs (⟨opened, start, stop, nodes⟩ :: blocks) [] hi' out :=
  ⟨start, out, h.mono hstart, by rw [hbranch]; exact .nil (Nat.le_refl _), .nil hle,
    by rw [hbranch]; exact List.append_nil out⟩

theorem close (h : Laid cs (block :: outer) nodes hi out) {loc : Location}
    (hstart : loc.start.offset = block.start) (hstop : hi ≤ loc.stop.offset) (inner : List Char) :
    Laid cs outer (OpenBlock.node block.opened nodes.reverse inner loc :: block.before)
      loc.stop.offset out := by
  obtain ⟨mid, before, houter, hbranch, hrun, rfl⟩ := h
  rw [← hstart] at houter hbranch
  have hrun := hrun.mono_right hstop
  have hsits := OpenBlock.sits_node hbranch hrun inner
  have hloc := OpenBlock.location_node block.opened nodes.reverse inner loc
  have hle : loc.start.offset ≤ loc.stop.offset := Nat.le_trans hbranch.1.le hrun.1.le
  have hlaid := houter.consNode ⟨by rw [hloc], by rwa [hloc], hsits⟩
  rw [hloc, OpenBlock.textsOf_node] at hlaid
  have hcons : Draft.consNode (OpenBlock.node block.opened nodes.reverse inner loc) block.before =
      OpenBlock.node block.opened nodes.reverse inner loc :: block.before :=
    Draft.splice_node _ _ _ _ _
  rwa [hcons] at hlaid

end Laid

end Builder

/-! ## Tokens -/

def TemplateFault.isUnexpected : TemplateFault → Bool
  | .unexpectedCloser _ => true
  | _ => false

def Token.placed (t : Token) : List (Nat × Char) :=
  Text.placed t.start t.lexeme

namespace Mark

/-- With these blocks open the token stays as text: it is text, or it closes nothing. -/
def keeps (stack : List Mark) (t : Token) : Bool :=
  t.kind = .text || (step stack t).2.any (·.fault.isUnexpected)

def kept : List Mark → List Token → List Token
  | _, [] => []
  | stack, t :: ts => (if keeps stack t then [t] else []) ++ kept (step stack t).1 ts

end Mark

namespace Token.Stands

variable {cs : List Char} {t : Token}

variable (hsize : byteLength cs < 4294967296)

include hsize

theorem offset_start (h : t.Stands cs) :
    ((Source.ofChars cs).location t.start t.stop).start.offset = t.start :=
  Source.offset_position hsize (h.start_le)

theorem offset_stop (h : t.Stands cs) (start : Nat) :
    ((Source.ofChars cs).location start t.stop).stop.offset = t.stop :=
  Source.offset_position hsize h.stop_le

theorem next_text {hi : Nat} (h : t.Stands cs) (hle : hi ≤ t.start) :
    Next cs hi
      (.text (String.ofList t.lexeme) ((Source.ofChars cs).location t.start t.stop)) where
  start := (h.offset_start hsize).symm ▸ hle
  le := by
    have hlt := h.start_lt_stop
    rw [Node.location, h.offset_start hsize, h.offset_stop hsize]
    omega
  sits := by
    refine ⟨fun hempty => h.ne_nil ?_, ?_⟩
    · rw [← String.toList_ofList (l := t.lexeme), hempty]
      rfl
    · rw [h.offset_start hsize, h.offset_stop hsize, String.toList_ofList]
      exact ⟨h.standsAt, rfl⟩

theorem next {hi : Nat} {n : Node} (h : t.Stands cs) (hle : hi ≤ t.start)
    (hloc : n.location = (Source.ofChars cs).location t.start t.stop) (hsits : Sits cs n) :
    Next cs hi n where
  start := by rw [hloc, h.offset_start hsize]; exact hle
  le := by rw [hloc, h.offset_start hsize, h.offset_stop hsize]; exact Nat.le_of_lt h.start_lt_stop
  sits := hsits

end Token.Stands

namespace Builder

variable {cs : List Char} {blocks outer : List OpenBlock} {block : OpenBlock} {d : Draft}
  {b : Builder} {hi : Nat} {out : List (Nat × Char)} {t : Token}

/-- A token about which no new fault is found has no complaint. -/
theorem not_keeps_of_errors {source : Source} {kind : Directive} {args : Option (List Char)}
    (hkind : t.kind = .directive kind args)
    (h : structuralErrors (take source b t).draft.errors = structuralErrors b.draft.errors) :
    Mark.keeps (b.blocks.map OpenBlock.mark) t = false := by
  have hfollows := (take_follows source b.draft b.blocks t).2
  rw [h] at hfollows
  have hnone : (Mark.step (b.blocks.map OpenBlock.mark) t).2 = none := by
    cases hstep : (Mark.step (b.blocks.map OpenBlock.mark) t).2 with
    | none => rfl
    | some c =>
      rw [hstep] at hfollows
      have hlength := congrArg List.length hfollows
      simp at hlength
  simp [Mark.keeps, hkind, hnone]

theorem keeps_of_errors {source : Source} {kind : Directive} {args : Option (List Char)}
    {fault : TemplateFault} {loc : Location} (hkind : t.kind = .directive kind args)
    (h : structuralErrors (take source b t).draft.errors =
      ⟨fault, loc⟩ :: structuralErrors b.draft.errors) :
    Mark.keeps (b.blocks.map OpenBlock.mark) t = fault.isUnexpected := by
  have hfollows := (take_follows source b.draft b.blocks t).2
  rw [h] at hfollows
  cases hstep : (Mark.step (b.blocks.map OpenBlock.mark) t).2 with
  | none =>
    rw [hstep] at hfollows
    have hlength := congrArg List.length hfollows
    simp at hlength
  | some c =>
    rw [hstep] at hfollows
    have hfault : fault = c.fault := congrArg TemplateError.fault (List.cons.inj hfollows).1
    simp [Mark.keeps, hkind, hstep, hfault]

namespace Laid

/-- What a token is read into behind `out`, the text so far. -/
def Takes (cs : List Char) (b : Builder) (t : Token) (out : List (Nat × Char)) : Prop :=
  Laid cs (take (Source.ofChars cs) b t).blocks (take (Source.ofChars cs) b t).draft.nodes t.stop
    (out ++ if Mark.keeps (b.blocks.map OpenBlock.mark) t then t.placed else [])

theorem start_le (h : Laid cs (block :: outer) d.nodes hi out) : block.start ≤ hi := by
  obtain ⟨mid, before, -, hbranch, hrun, -⟩ := h
  exact Nat.le_trans hbranch.1.le hrun.1.le

variable (hsize : byteLength cs < 4294967296) (ht : t.Stands cs) (hle : hi ≤ t.start)
  {kind : Directive} {args : Option (List Char)} (hkind : t.kind = .directive kind args)

include hsize ht hle

theorem text (h : Laid cs blocks d.nodes hi out) :
    Laid cs blocks (d.pushText t.lexeme ((Source.ofChars cs).location t.start t.stop)).nodes t.stop
      (out ++ t.placed) := by
  have hlaid := h.consNode (ht.next_text hsize hle)
  rwa [Node.location, ht.offset_stop hsize, textsOf, ht.offset_start hsize,
    String.toList_ofList] at hlaid

theorem push {n : Node} (h : Laid cs blocks d.nodes hi out)
    (hloc : n.location = (Source.ofChars cs).location t.start t.stop) (hsits : Sits cs n)
    (htexts : textsOf n = []) (hcons : ∀ ns, Draft.consNode n ns = n :: ns) :
    Laid cs blocks (d.push n).nodes t.stop out := by
  have hlaid := h.consNode (ht.next hsize hle hloc hsits)
  rwa [hloc, ht.offset_stop hsize, htexts, List.append_nil, hcons] at hlaid

include hkind

theorem takes_other (h : Laid cs blocks d.nodes hi out) (hk : kind ∉ stops blocks) :
    Takes cs ⟨d, blocks⟩ t out := by
  have htake : take (Source.ofChars cs) ⟨d, blocks⟩ t =
      takeOther (Source.ofChars cs) ⟨d, blocks⟩ kind (String.ofList (args.getD [])) t :=
    take_other hkind hk
  have hentered := d.entered (Source.ofChars cs) kind (String.ofList (args.getD [])) t
  unfold takeOther at htake
  generalize d.enter (Source.ofChars cs) kind (String.ofList (args.getD [])) t = entered
    at htake hentered
  have hstop : hi ≤ t.stop := Nat.le_trans hle (Nat.le_of_lt ht.start_lt_stop)
  unfold Takes
  cases hentered with
  | @opens d' opened hnodes hbranch herrors =>
    rw [not_keeps_of_errors hkind (by rw [htake]; exact herrors), htake]
    have hopen := h.openBlock hbranch hle (Nat.le_of_lt ht.start_lt_stop) t.stop
    rw [← hnodes] at hopen
    simpa using hopen
  | @adds n hloc hsits htexts hcons =>
    rw [not_keeps_of_errors hkind (by rw [htake]; rfl), htake]
    simpa using h.push hsize ht hle hloc (hsits cs) htexts hcons
  | @drops d' hnodes herrors =>
    rw [not_keeps_of_errors hkind (by rw [htake]; exact herrors), htake]
    simpa [hnodes] using h.mono hstop
  | @stray closer =>
    rw [keeps_of_errors hkind (by rw [htake]; rfl), htake]
    exact h.text hsize ht hle

theorem takes_stop (h : Laid cs (block :: outer) d.nodes hi out)
    (hk : kind ∈ block.opened.stops) : Takes cs ⟨d, block :: outer⟩ t out := by
  have htake : take (Source.ofChars cs) ⟨d, block :: outer⟩ t =
      takeStop (Source.ofChars cs) d block outer kind t := take_stop hkind hk
  have hstop : hi ≤ t.stop := Nat.le_trans hle (Nat.le_of_lt ht.start_lt_stop)
  unfold takeStop at htake
  unfold Takes
  split at htake
  · obtain ⟨opened, start, stop, held⟩ := block
    -- Only the first `@else` of a condition puts a branch aside.
    by_cases hfirst : ∃ condition, opened = .conditional condition none
    · obtain ⟨condition, rfl⟩ := hfirst
      have hswitch : OpenBlock.switch (Source.ofChars cs)
            ⟨.conditional condition none, start, stop, held⟩ t d =
          (⟨.conditional condition (some d.nodes.reverse), start, stop, held⟩,
            { d with nodes := [] }) := rfl
      rw [hswitch] at htake
      rw [not_keeps_of_errors hkind (by rw [htake]), htake]
      obtain ⟨mid, before, houter, hbranch, hrun, rfl⟩ := h
      have hconsequent := hrun.mono_left hbranch.1.le
      exact ⟨hi, before, houter, hconsequent, .nil hstop, by simp [texts, Opened.branch]⟩
    · have hswitch : OpenBlock.switch (Source.ofChars cs) ⟨opened, start, stop, held⟩ t d =
          (⟨opened, start, stop, held⟩,
            d.report .duplicateElse ((Source.ofChars cs).location t.start t.stop)) := by
        unfold OpenBlock.switch
        split
        · rename_i condition hopened
          exact absurd ⟨condition, hopened⟩ hfirst
        · rfl
      rw [hswitch] at htake
      rw [keeps_of_errors hkind (by rw [htake]; rfl), htake]
      simpa [TemplateFault.isUnexpected, Draft.report] using h.mono hstop
  · rw [not_keeps_of_errors hkind (by rw [htake]; rfl), htake]
    have hstart : ((Source.ofChars cs).location block.start t.stop).start.offset = block.start :=
      Source.offset_position hsize (Nat.le_trans (Nat.le_trans h.start_le hstop) ht.stop_le)
    have hend := ht.offset_stop hsize block.start
    have hclose := h.close hstart (by rw [hend]; exact hstop)
      ((Source.ofChars cs).slice block.stop t.start)
    rw [hend] at hclose
    simp only [Bool.false_eq_true, if_false, List.append_nil]
    exact hclose

omit hkind

/-- What one token does to the runs. -/
theorem takes (h : Laid cs b.blocks b.draft.nodes hi out) : Takes cs b t out := by
  obtain ⟨d, blocks⟩ := b
  cases hkind : t.kind with
  | text =>
    have hkeeps : Mark.keeps (blocks.map OpenBlock.mark) t = true := by simp [Mark.keeps, hkind]
    simp only [Takes, Builder.take, hkind, hkeeps, if_true]
    exact h.text hsize ht hle
  | interpolation escape content =>
    have hkeeps : Mark.keeps (blocks.map OpenBlock.mark) t = false := by
      simp [Mark.keeps, Mark.step, hkind]
    simp only [Takes, Builder.take, hkind, hkeeps, Bool.false_eq_true, if_false, List.append_nil]
    exact h.push hsize ht hle rfl trivial rfl fun _ => rfl
  | directive kind args =>
    by_cases hk : kind ∈ stops blocks
    · cases blocks with
      | nil => cases hk
      | cons block outer => exact h.takes_stop hsize ht hle hkind hk
    · exact h.takes_other hsize ht hle hkind hk

omit ht hle

theorem foldl (h : Laid cs b.blocks b.draft.nodes hi out) (hhi : hi ≤ byteLength cs)
    {ts : List Token} (hts : ∀ t ∈ ts, t.Stands cs ∧ hi ≤ t.start)
    (hordered : ts.Pairwise fun t u => t.stop ≤ u.start) :
    ∃ end' ≤ byteLength cs, Laid cs (ts.foldl (Builder.take (Source.ofChars cs)) b).blocks
      (ts.foldl (Builder.take (Source.ofChars cs)) b).draft.nodes end'
      (out ++ (Mark.kept (b.blocks.map OpenBlock.mark) ts).flatMap Token.placed) := by
  induction ts generalizing b hi out with
  | nil => exact ⟨hi, hhi, by simpa [Mark.kept] using h⟩
  | cons t ts ih =>
    obtain ⟨ht, hle⟩ := hts t List.mem_cons_self
    obtain ⟨hfirst, hrest⟩ := List.pairwise_cons.1 hordered
    have htakes := h.takes hsize ht hle
    obtain ⟨end', hend, hlaid⟩ := ih htakes ht.stop_le
      (fun u hu => ⟨(hts u (List.mem_cons_of_mem _ hu)).1, hfirst u hu⟩) hrest
    refine ⟨end', hend, ?_⟩
    rw [(take_follows (Source.ofChars cs) b.draft b.blocks t).1] at hlaid
    rw [List.foldl_cons, Mark.kept, List.flatMap_append, ← List.append_assoc]
    have hkeeps : (if Mark.keeps (b.blocks.map OpenBlock.mark) t then t.placed else []) =
        (if Mark.keeps (b.blocks.map OpenBlock.mark) t then [t] else []).flatMap Token.placed := by
      split <;> simp
    rwa [hkeeps] at hlaid

theorem abandonAll (h : Laid cs blocks d.nodes hi out) (hhi : hi ≤ byteLength cs) :
    Laid cs [] (Builder.abandonAll (Source.ofChars cs) d blocks).nodes (byteLength cs) out := by
  induction blocks generalizing d hi out with
  | nil => exact h.mono hhi
  | cons block outer ih =>
    rw [abandonAll_cons]
    refine ih ?_ (Nat.le_refl _)
    have hstart : ((Source.ofChars cs).location block.start (byteLength cs)).start.offset =
        block.start := Source.offset_position hsize (Nat.le_trans h.start_le hhi)
    have hstop : ((Source.ofChars cs).location block.start (byteLength cs)).stop.offset =
        byteLength cs := Source.offset_position hsize (Nat.le_refl _)
    have hclose := h.close hstart (by rw [hstop]; exact hhi) []
    rw [hstop] at hclose
    obtain ⟨opened, start, stop, held⟩ := block
    cases opened with
    | errorBlock field =>
      obtain ⟨mid, before, houter, hbranch, hrun, rfl⟩ := h
      exact houter.splice ((hrun.mono_left hbranch.1.le).mono_right hhi)
    | _ => exact hclose

end Laid

end Builder

/-- The nodes of a list of tokens that lie in the template one after the other. -/
theorem placed_parseTokens {cs : List Char} (hsize : byteLength cs < 4294967296) {ts : List Token}
    (hts : ∀ t ∈ ts, t.Stands cs) (hordered : ts.Pairwise fun t u => t.stop ≤ u.start) :
    Placed cs 0 (byteLength cs) (parseTokens (Source.ofChars cs) ts).1 ∧
      texts (parseTokens (Source.ofChars cs) ts).1 = (Mark.kept [] ts).flatMap Token.placed := by
  have hempty : Builder.Laid cs [] Draft.empty.nodes 0 [] := ⟨.nil (Nat.le_refl 0), rfl⟩
  obtain ⟨end', hend, hlaid⟩ := hempty.foldl hsize (b := ⟨Draft.empty, []⟩) (Nat.zero_le _)
    (fun t ht => ⟨hts t ht, Nat.zero_le _⟩) hordered
  rw [parseTokens_eq_build]
  exact hlaid.abandonAll hsize hend

/-! ## Closing directives that stay -/

def Complaint.isAbout (t : Token) (c : Complaint) : Bool :=
  c.fault.isUnexpected && decide (c.start = t.start ∧ c.stop = t.stop)

namespace Mark

variable {stack : List Mark} {t : Token} {ts : List Token} {c : Complaint}

theorem exists_of_unexpected (h : c ∈ complaints stack ts) (hc : c.fault.isUnexpected = true) :
    ∃ u ∈ ts, c.start = u.start ∧ c.stop = u.stop := by
  induction ts generalizing stack with
  | nil =>
    obtain ⟨mark, -, rfl⟩ := List.mem_map.1 h
    cases hc
  | cons t ts ih =>
    rcases List.mem_append.1 h with hstep | hrest
    · exact ⟨t, List.mem_cons_self, place_complaint (Option.mem_toList.1 hstep)⟩
    · obtain ⟨u, hu, hplace⟩ := ih hrest
      exact ⟨u, List.mem_cons_of_mem _ hu, hplace⟩

/-- The complaint in the step of a token is about this token, if about one. -/
theorem any_isAbout_step (stack : List Mark) (t u : Token) (h : u.start = t.start → u = t) :
    (step stack t).2.toList.any (Complaint.isAbout u) =
      (decide (u.start = t.start) && (step stack t).2.any (·.fault.isUnexpected)) := by
  cases hstep : (step stack t).2 with
  | none => simp
  | some c =>
    obtain ⟨hstart, hstop⟩ := place_complaint (Option.mem_def.2 hstep)
    by_cases hu : u.start = t.start
    · obtain rfl := h hu
      simp [Complaint.isAbout, hstart, hstop]
    · simp [Complaint.isAbout, hstart, Ne.symm hu, hu]

/-- Tokens stay as text that are text or complained of as closing nothing. -/
theorem kept_eq_filter (h : ts.Pairwise fun t u => t.start < u.start) :
    kept stack ts = ts.filter fun t =>
      t.kind = .text || (complaints stack ts).any (Complaint.isAbout t) := by
  induction ts generalizing stack with
  | nil => rfl
  | cons t ts ih =>
    obtain ⟨hfirst, hrest⟩ := List.pairwise_cons.1 h
    have hlater : (complaints (step stack t).1 ts).any (Complaint.isAbout t) = false := by
      refine List.any_eq_false.2 fun c hc habout => ?_
      obtain ⟨hunexpected, hplace⟩ := Bool.and_eq_true_iff.1 habout
      obtain ⟨u, hu, hstart, -⟩ := exists_of_unexpected hc hunexpected
      have hlt := hfirst u hu
      have heq := (of_decide_eq_true hplace).1
      omega
    have hothers : ∀ u ∈ ts, (step stack t).2.toList.any (Complaint.isAbout u) = false := by
      intro u hu
      have hne : u.start ≠ t.start := Nat.ne_of_gt (hfirst u hu)
      rw [any_isAbout_step stack t u fun heq => absurd heq hne, decide_eq_false hne,
        Bool.false_and]
    have hself : (step stack t).2.toList.any (Complaint.isAbout t) =
        (step stack t).2.any (·.fault.isUnexpected) := by
      rw [any_isAbout_step stack t t fun _ => rfl, decide_eq_true rfl, Bool.true_and]
    have htail : (ts.filter fun u => u.kind = .text ||
          (complaints stack (t :: ts)).any (Complaint.isAbout u)) =
        ts.filter fun u => u.kind = .text ||
          (complaints (step stack t).1 ts).any (Complaint.isAbout u) :=
      List.filter_congr fun u hu => by
        rw [complaints, List.any_append, hothers u hu, Bool.false_or]
    have hhead : (complaints stack (t :: ts)).any (Complaint.isAbout t) =
        (step stack t).2.any (·.fault.isUnexpected) := by
      rw [complaints, List.any_append, hlater, hself, Bool.or_false]
    rw [kept, ih hrest, List.filter_cons, htail, hhead, keeps]
    split <;> rfl

end Mark

def TemplateError.isAbout (source : Source) (t : Token) (e : TemplateError) : Bool :=
  e.fault.isUnexpected && decide (e.loc = source.location t.start t.stop)

/-- With these errors the token stays as text: it is text, or it is reported as a closing directive
that closes nothing. -/
def Token.stays (source : Source) (errors : List TemplateError) (t : Token) : Bool :=
  t.kind = .text || errors.any (·.isAbout source t)

/-- The mistakes that show in the tokens are about no closing directive. -/
theorem any_isAbout_parseTemplate (m : Markers) (text : String) (source : Source) (t : Token) :
    (parseTemplate m text).errors.any (·.isAbout source t) =
      (parseTokens (Source.ofChars text.toList) (Token.tokens m text.toList)).2.any
        (·.isAbout source t) := by
  have hearly : ((Token.errors m text.toList).map fun e =>
      (⟨e.fault.toFault, (Source.ofChars text.toList).location e.start e.stop⟩ : TemplateError)).any
        (·.isAbout source t) = false := by
    rw [List.any_map, List.any_eq_false]
    intro e _
    obtain ⟨fault, start, stop⟩ := e
    cases fault <;> exact Bool.false_ne_true
  rw [parseTemplate, List.any_append, hearly, Bool.false_or]

theorem any_isAbout_structuralErrors (source : Source) (t : Token) (errors : List TemplateError) :
    (structuralErrors errors).any (·.isAbout source t) = errors.any (·.isAbout source t) := by
  rw [structuralErrors, List.any_filter]
  refine congrArg errors.any (funext fun e => ?_)
  obtain ⟨fault, loc⟩ := e
  cases fault <;> simp [TemplateError.isAbout, TemplateFault.isUnexpected, TemplateFault.isStructural]

section Located

variable {cs : List Char} (hsize : byteLength cs < 4294967296)

include hsize

theorem isAbout_locate {t u : Token} (ht : t.Stands cs) (hu : u.Stands cs) {c : Complaint}
    (hstart : c.start = u.start) (hstop : c.stop = u.stop) :
    (c.locate (Source.ofChars cs)).isAbout (Source.ofChars cs) t = c.isAbout t := by
  have hplace : c.start = t.start ∧ c.stop = t.stop ↔
      (c.locate (Source.ofChars cs)).loc = (Source.ofChars cs).location t.start t.stop := by
    constructor
    · rintro ⟨hstart, hstop⟩
      rw [Complaint.locate, hstart, hstop]
    · intro h
      have hle (v : Token) (hv : v.Stands cs) : v.start ≤ byteLength cs ∧ v.stop ≤ byteLength cs :=
        ⟨hv.start_le, hv.stop_le⟩
      rw [Complaint.locate, hstart, hstop] at h
      rw [hstart, hstop]
      exact Source.location_inj hsize h (hle u hu).1 (hle u hu).2 (hle t ht).1 (hle t ht).2
  rw [TemplateError.isAbout, Complaint.isAbout, decide_eq_decide.2 hplace]
  rfl

theorem any_isAbout_parseTokens {ts : List Token} (hts : ∀ t ∈ ts, t.Stands cs) {t : Token}
    (ht : t.Stands cs) :
    (parseTokens (Source.ofChars cs) ts).2.any (·.isAbout (Source.ofChars cs) t) =
      (Mark.complaints [] ts).any (Complaint.isAbout t) := by
  rw [← any_isAbout_structuralErrors, structuralErrors_parseTokens, List.any_map]
  have hlocate : ∀ c ∈ Mark.complaints [] ts,
      (c.locate (Source.ofChars cs)).isAbout (Source.ofChars cs) t = c.isAbout t := by
    intro c hc
    by_cases hunexpected : c.fault.isUnexpected = true
    · obtain ⟨u, hu, hstart, hstop⟩ := Mark.exists_of_unexpected hc hunexpected
      exact isAbout_locate hsize ht (hts u hu) hstart hstop
    · simp [Complaint.locate, Complaint.isAbout, TemplateError.isAbout, hunexpected]
  rw [Bool.eq_iff_iff, List.any_eq_true, List.any_eq_true]
  exact exists_congr fun c => and_congr_right fun hc => by rw [Function.comp_apply, hlocate c hc]

end Located

/-- The tree keeps the source. In the tree of a template of less than four gibibytes, with whatever
delimiters and whatever errors, every text is not empty and holds what stands in the template where
its location says, and no two texts beside each other touch; every node lies in the location of its
parent, in a condition the first branch before the other one, and nodes beside each other lie in
order. The texts of the tree, read in document order, are the characters of the text tokens and of
the closing directives that are reported as closing nothing, each once and at its place. -/
theorem tree_keeps_source (m : Markers) (text : String)
    (hsize : byteLength text.toList < 4294967296) :
    let parsed := parseTemplate m text
    let source := Source.ofChars text.toList
    Placed text.toList parsed.root.loc.start.offset parsed.root.loc.stop.offset
        parsed.root.children ∧
      texts parsed.root.children =
        ((Token.tokens m text.toList).filter (Token.stays source parsed.errors)).flatMap
          Token.placed := by
  intro parsed source
  have hcovers := Token.covers_tokens m text.toList
  have hts : ∀ t ∈ Token.tokens m text.toList, t.Stands text.toList := fun t ht =>
    ⟨(hcovers.standsAt ht).1, (hcovers.standsAt ht).2⟩
  obtain ⟨hplaced, htexts⟩ := placed_parseTokens hsize hts hcovers.pairwise
  have hstart : parsed.root.loc.start.offset = 0 := Source.offset_position hsize (Nat.zero_le _)
  have hstop : parsed.root.loc.stop.offset = byteLength text.toList :=
    Source.offset_position hsize (Nat.le_refl _)
  have hstays : ∀ t ∈ Token.tokens m text.toList, t.stays source parsed.errors =
      (t.kind = .text ||
        (Mark.complaints [] (Token.tokens m text.toList)).any (Complaint.isAbout t)) := by
    intro t ht
    rw [Token.stays, any_isAbout_parseTemplate, any_isAbout_parseTokens hsize hts (hts t ht)]
  rw [hstart, hstop]
  refine ⟨hplaced, ?_⟩
  rw [List.filter_congr hstays, ← Mark.kept_eq_filter (Token.pairwise_start_tokens m text.toList)]
  exact htexts

/-- A condition with two `@else`, in which a closing directive of a loop stands, and an error block
that is never closed. -/
def tornPage : String :=
  "a@if($x)b@endforeach c@else d@else{{ $y }}e@endif @error('f')g@endif h"

theorem tree_keeps_source_torn :
    let parsed := parseTemplate Markers.standard tornPage
    let source := Source.ofChars tornPage.toList
    byteLength tornPage.toList < 4294967296 ∧
      Placed tornPage.toList parsed.root.loc.start.offset parsed.root.loc.stop.offset
        parsed.root.children ∧
      texts parsed.root.children =
        ((Token.tokens Markers.standard tornPage.toList).filter
          (Token.stays source parsed.errors)).flatMap Token.placed ∧
      String.ofList ((texts parsed.root.children).map (·.2)) = "ab@endforeach c de g@endif h" := by
  have hsize : byteLength tornPage.toList < 4294967296 := by decide
  obtain ⟨hplaced, htexts⟩ := tree_keeps_source Markers.standard tornPage hsize
  exact ⟨hsize, hplaced, htexts, by cbv⟩

end Templating
