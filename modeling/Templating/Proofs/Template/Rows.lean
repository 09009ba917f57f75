import Templating.Proofs.Template.Partition
import Templating.Proofs.Template.Splice

/-!
# Nodes in the template they come from

A node sits in a template when it is what its location says (`Node.Sits`): a text holds what stands
there, and the nodes of a block are a row within it (`Node.Row`), one after the other. A run of nodes
that sit stays so when a node comes behind it or another run does, also where text joins the text
before it (`Node.Placed.consNode`, `Node.Placed.splice`), and the characters of its texts are then
those of both (`Node.texts`).
-/

namespace Templating

open Text

/-- Characters with the offsets where they begin, in a text that begins at `offset`. -/
def Text.placed (offset : Nat) : List Char → List (Nat × Char)
  | [] => []
  | c :: cs => (offset, c) :: placed (offset + c.utf8Size) cs

theorem Text.placed_append (offset : Nat) (cs ds : List Char) :
    placed offset (cs ++ ds) = placed offset cs ++ placed (offset + byteLength cs) ds := by
  induction cs generalizing offset with
  | nil => rfl
  | cons c cs ih => rw [List.cons_append, placed, placed, ih, byteLength_cons, Nat.add_assoc]; rfl

theorem Text.exists_of_append_eq {before before' after after' : List Char}
    (h : before ++ after = before' ++ after') (hle : byteLength before ≤ byteLength before') :
    ∃ mid, before' = before ++ mid ∧ after = mid ++ after' := by
  rcases List.append_eq_append_iff.1 h with hmid | ⟨extra, rfl, hafter⟩
  · exact hmid
  · obtain rfl : extra = [] := byteLength_eq_zero_iff.1 (by
      rw [byteLength_append] at hle
      omega)
    exact ⟨[], by simp, hafter.symm⟩

theorem Text.eq_of_append_eq {before before' after after' : List Char}
    (h : before ++ after = before' ++ after') (hlength : byteLength before = byteLength before') :
    before = before' ∧ after = after' := by
  obtain ⟨mid, rfl, rfl⟩ := exists_of_append_eq h (Nat.le_of_eq hlength)
  obtain rfl : mid = [] := byteLength_eq_zero_iff.1 (by
    rw [byteLength_append] at hlength
    omega)
  exact ⟨(List.append_nil before).symm, rfl⟩

theorem Span.Holds.join {cs chars chars' : List Char} {start mid stop : Nat}
    (h : Span.Holds ⟨start, mid⟩ cs chars) (h' : Span.Holds ⟨mid, stop⟩ cs chars') :
    Span.Holds ⟨start, stop⟩ cs (chars ++ chars') := by
  obtain ⟨⟨before, after, hcs, hstart⟩, hmid⟩ := h
  obtain ⟨⟨before', after', hcs', hstart'⟩, hstop⟩ := h'
  have hlength : byteLength (before ++ chars) = byteLength before' := by
    rw [byteLength_append]
    simp only [Nat.zero_add] at hstart hstart'
    simp only at hmid
    omega
  rw [List.append_assoc] at hcs'
  obtain ⟨rfl, rfl⟩ := Text.eq_of_append_eq (hcs.symm.trans hcs') hlength
  refine ⟨⟨before, after', by simp [hcs', List.append_assoc], hstart⟩, ?_⟩
  rw [byteLength_append]
  simp only at hmid hstop ⊢
  omega

namespace Node

def Touches : Node → Node → Prop
  | .text _ loc, .text _ loc' => loc.stop.offset = loc'.start.offset
  | _, _ => False

/-- The nodes lie between two offsets, one after the other: each ends no later than the next begins,
and no two texts beside each other touch. -/
structure Row (lo hi : Nat) (ns : List Node) : Prop where
  le : lo ≤ hi
  bounds : ∀ n ∈ ns, lo ≤ n.location.start.offset ∧
    n.location.start.offset ≤ n.location.stop.offset ∧ n.location.stop.offset ≤ hi
  ordered : ns.Pairwise fun n n' => n.location.stop.offset ≤ n'.location.start.offset
  apart : ns.IsChain fun n n' => ¬n.Touches n'

mutual

/-- In the template `cs` the node is what its location says, and so are the nodes in it. A text is
not empty and holds what stands there; the nodes of a block are a row within its location, and in a
condition those of the first branch come before those of the other one. -/
def Sits (cs : List Char) : Node → Prop
  | .text content loc =>
    content ≠ "" ∧ Span.Holds ⟨loc.start.offset, loc.stop.offset⟩ cs content.toList
  | .conditional _ consequent none loc =>
    Row loc.start.offset loc.stop.offset consequent ∧ AllSit cs consequent
  | .conditional _ consequent (some alternate) loc =>
    ∃ mid, (Row loc.start.offset mid consequent ∧ AllSit cs consequent) ∧
      Row mid loc.stop.offset alternate ∧ AllSit cs alternate
  | .loop _ _ _ body loc => Row loc.start.offset loc.stop.offset body ∧ AllSit cs body
  | .errorBlock _ body _ loc => Row loc.start.offset loc.stop.offset body ∧ AllSit cs body
  | .sectionBlock _ body loc => Row loc.start.offset loc.stop.offset body ∧ AllSit cs body
  | _ => True

def AllSit (cs : List Char) : List Node → Prop
  | [] => True
  | n :: ns => Sits cs n ∧ AllSit cs ns

end

/-- The nodes are a row between two offsets of the template `cs`, each where its location says. -/
def Placed (cs : List Char) (lo hi : Nat) (ns : List Node) : Prop :=
  Row lo hi ns ∧ AllSit cs ns

mutual

def textsOf : Node → List (Nat × Char)
  | .text content loc => Text.placed loc.start.offset content.toList
  | .conditional _ consequent none _ => texts consequent
  | .conditional _ consequent (some alternate) _ => texts consequent ++ texts alternate
  | .loop _ _ _ body _ => texts body
  | .errorBlock _ body _ _ => texts body
  | .sectionBlock _ body _ => texts body
  | _ => []

def texts : List Node → List (Nat × Char)
  | [] => []
  | n :: ns => textsOf n ++ texts ns

end

theorem texts_append (ms ns : List Node) : texts (ms ++ ns) = texts ms ++ texts ns := by
  induction ms with
  | nil => rfl
  | cons n ms ih => rw [List.cons_append, texts, texts, ih, List.append_assoc]

theorem texts_reverse_cons (n : Node) (ns : List Node) :
    texts (n :: ns).reverse = texts ns.reverse ++ textsOf n := by
  rw [List.reverse_cons, texts_append, texts, texts, List.append_nil]

variable {cs : List Char} {lo lo' mid hi hi' : Nat} {n : Node} {ns : List Node}

theorem allSit_iff : AllSit cs ns ↔ ∀ n ∈ ns, Sits cs n := by
  induction ns with
  | nil => simp [AllSit]
  | cons n ns ih => simp [AllSit, ih]

theorem Row.nil (h : lo ≤ hi) : Row lo hi [] :=
  ⟨h, fun _ hn => (by cases hn), .nil, .nil⟩

theorem row_reverse_cons :
    Row lo hi (n :: ns).reverse ↔ Row lo n.location.start.offset ns.reverse ∧
      n.location.start.offset ≤ n.location.stop.offset ∧ n.location.stop.offset ≤ hi ∧
      ∀ last ∈ ns.head?, ¬last.Touches n := by
  constructor
  · rintro ⟨-, hbounds, hordered, hapart⟩
    rw [List.pairwise_reverse, List.pairwise_cons] at hordered
    rw [List.isChain_reverse, List.isChain_cons] at hapart
    obtain ⟨hlo, hle, hhi⟩ := hbounds n (by simp)
    refine ⟨⟨hlo, fun n' hn' => ?_, ?_, ?_⟩, hle, hhi, hapart.1⟩
    · obtain ⟨hlo', hle', -⟩ := hbounds n' (by simp_all)
      exact ⟨hlo', hle', hordered.1 n' (List.mem_reverse.1 hn')⟩
    · exact List.pairwise_reverse.2 hordered.2
    · exact List.isChain_reverse.2 hapart.2
  · rintro ⟨⟨hlo, hbounds, hordered, hapart⟩, hle, hhi, hlast⟩
    rw [List.pairwise_reverse] at hordered
    rw [List.isChain_reverse] at hapart
    refine ⟨by omega, fun n' hn' => ?_, ?_, ?_⟩
    · rcases List.mem_cons.1 (List.mem_reverse.1 hn') with rfl | hn'
      · exact ⟨hlo, hle, hhi⟩
      · obtain ⟨hlo', hle', hhi'⟩ := hbounds n' (List.mem_reverse.2 hn')
        exact ⟨hlo', hle', by omega⟩
    · rw [List.pairwise_reverse, List.pairwise_cons]
      exact ⟨fun n' hn' => (hbounds n' (List.mem_reverse.2 hn')).2.2, hordered⟩
    · rw [List.isChain_reverse, List.isChain_cons]
      exact ⟨hlast, hapart⟩

namespace Placed

theorem nil (h : lo ≤ hi) : Placed cs lo hi [] :=
  ⟨.nil h, trivial⟩

theorem mono_left (h : Placed cs lo hi ns) (hle : lo' ≤ lo) : Placed cs lo' hi ns := by
  obtain ⟨⟨hlo, hbounds, hordered, hapart⟩, hsits⟩ := h
  refine ⟨⟨by omega, fun n hn => ?_, hordered, hapart⟩, hsits⟩
  obtain ⟨hstart, hn⟩ := hbounds n hn
  exact ⟨by omega, hn⟩

theorem mono_right (h : Placed cs lo hi ns) (hle : hi ≤ hi') : Placed cs lo hi' ns := by
  obtain ⟨⟨hlo, hbounds, hordered, hapart⟩, hsits⟩ := h
  refine ⟨⟨by omega, fun n hn => ?_, hordered, hapart⟩, hsits⟩
  obtain ⟨hstart, hn, hstop⟩ := hbounds n hn
  exact ⟨hstart, hn, by omega⟩

theorem reverse_cons :
    Placed cs lo hi (n :: ns).reverse ↔ Placed cs lo n.location.start.offset ns.reverse ∧
      n.location.start.offset ≤ n.location.stop.offset ∧ n.location.stop.offset ≤ hi ∧
      (∀ last ∈ ns.head?, ¬last.Touches n) ∧ Sits cs n := by
  have hsits : AllSit cs (n :: ns).reverse ↔ AllSit cs ns.reverse ∧ Sits cs n := by
    simp [allSit_iff, or_imp, forall_and, and_comm]
  rw [Placed, Placed, row_reverse_cons, hsits]
  tauto

end Placed

/-- The node begins at or behind `hi` and is what its location says. -/
structure Next (cs : List Char) (hi : Nat) (n : Node) : Prop where
  start : hi ≤ n.location.start.offset
  le : n.location.start.offset ≤ n.location.stop.offset
  sits : Sits cs n

theorem Placed.join {last content : String} {lastLoc loc : Location}
    (h : Placed cs lo hi (.text last lastLoc :: ns).reverse) (hn : Next cs hi (.text content loc))
    (htouch : lastLoc.stop.offset = loc.start.offset) :
    Placed cs lo loc.stop.offset (.text (last ++ content) ⟨lastLoc.start, loc.stop⟩ :: ns).reverse ∧
      texts (.text (last ++ content) ⟨lastLoc.start, loc.stop⟩ :: ns).reverse =
        texts (.text last lastLoc :: ns).reverse ++ textsOf (.text content loc) := by
  obtain ⟨hrest, hle, -, hapart, hne, hlast⟩ := Placed.reverse_cons.1 h
  obtain ⟨-, hcontent⟩ := hn.sits
  have hnle : loc.start.offset ≤ loc.stop.offset := hn.le
  have hwhole : Span.Holds ⟨lastLoc.start.offset, loc.stop.offset⟩ cs (last ++ content).toList := by
    rw [String.toList_append]
    rw [htouch] at hlast
    exact hlast.join hcontent
  have hstop : lastLoc.start.offset + byteLength last.toList = loc.start.offset :=
    hlast.stop.symm.trans htouch
  have happend : last ++ content ≠ "" := fun h => hne (String.append_eq_empty_iff.1 h).1
  constructor
  · refine Placed.reverse_cons.2 ⟨hrest, ?_, Nat.le_refl _, fun n hn => ?_, happend, hwhole⟩
    · exact Nat.le_trans (htouch ▸ hle) hnle
    · have hnot := hapart n hn
      cases n <;> exact hnot
  · rw [texts_reverse_cons, texts_reverse_cons, textsOf, textsOf, textsOf, String.toList_append,
      Text.placed_append, hstop, List.append_assoc]

/-- A run with a node behind it: the node lies where it says, or has joined the text before it. -/
theorem Placed.consNode (h : Placed cs lo hi ns.reverse) (hn : Next cs hi n) :
    Placed cs lo n.location.stop.offset (Draft.consNode n ns).reverse ∧
      texts (Draft.consNode n ns).reverse = texts ns.reverse ++ textsOf n := by
  have hcons (hlast : ∀ last ∈ ns.head?, ¬last.Touches n) :
      Placed cs lo n.location.stop.offset (n :: ns).reverse ∧
        texts (n :: ns).reverse = texts ns.reverse ++ textsOf n :=
    ⟨Placed.reverse_cons.2 ⟨h.mono_right hn.start, hn.le, Nat.le_refl _, hlast, hn.sits⟩,
      texts_reverse_cons n ns⟩
  cases n with
  | text content loc =>
    cases ns with
    | nil => exact hcons fun _ hlast => by cases hlast
    | cons last ns =>
      cases last with
      | text last lastLoc =>
        by_cases htouch : lastLoc.stop.offset = loc.start.offset
        · simp only [Draft.consNode, Draft.consText, htouch, if_true]
          exact h.join hn htouch
        · simp only [Draft.consNode, Draft.consText, htouch, if_false]
          refine hcons fun last hmem => ?_
          obtain rfl := Option.some.inj hmem
          exact htouch
      | _ => exact hcons fun last hmem => by obtain rfl := Option.some.inj hmem; exact id
  | _ => exact hcons fun last _ => by cases last <;> exact id

theorem Placed.splice {ms : List Node} (h : Placed cs lo mid ns.reverse)
    (hms : Placed cs mid hi ms.reverse) :
    Placed cs lo hi (Draft.splice ms ns).reverse ∧
      texts (Draft.splice ms ns).reverse = texts ns.reverse ++ texts ms.reverse := by
  induction ms generalizing hi with
  | nil => exact ⟨h.mono_right hms.1.le, by rw [List.reverse_nil, texts, List.append_nil]; rfl⟩
  | cons n ms ih =>
    obtain ⟨hrest, hle, hhi, -, hsits⟩ := Placed.reverse_cons.1 hms
    obtain ⟨hplaced, htexts⟩ := ih hrest
    obtain ⟨hnext, hnexts⟩ := hplaced.consNode ⟨Nat.le_refl _, hle, hsits⟩
    refine ⟨hnext.mono_right hhi, ?_⟩
    rw [texts_reverse_cons, ← List.append_assoc, ← htexts]
    exact hnexts

end Node

end Templating
