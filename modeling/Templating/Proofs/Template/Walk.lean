import Mathlib
import Templating.Proofs.Template.Places

/-!
# The way from an opening to what closes it

What looks for a closing delimiter and what looks for a closing parenthesis go the same way over the
bytes: a quote takes them behind its run, and any other byte by one (`Place.Walk`). At none of the
bytes that are taken one by one does the delimiter stand, and their parentheses are balanced
(`Place.walk_of_findClosing?`, `Place.walk_of_findParen?`).

A token that was noted keeps what was found behind its opening (`Lexed.Sought`). A step of the
scanner preserves that (`Scanner.Faithful.step`), so it holds of every token of a template.
-/

namespace Templating

open Text

namespace Place

/-- The way from one place to another: a quote leads behind its run, any other byte to the next one.
The bytes that are taken one by one are `plain`, the quoted runs `runs`. -/
inductive Walk : Place → List Place → List Span → Place → Prop where
  | here (p : Place) : Walk p [] [] p
  | byte {p q : Place} {b bs plain runs} (hrest : p.rest = b :: bs)
      (hplain : isByte Quoted.isQuote b = false) (h : Walk (p.forward 1) plain runs q) :
      Walk p (p :: plain) runs q
  | quoted {p next q : Place} {b bs plain runs} (hrest : p.rest = b :: bs)
      (hquote : isByte Quoted.isQuote b = true) (hskip : skipQuoted? b (p.index + 1) bs = some next)
      (h : Walk next plain runs q) : Walk p plain (⟨p.index, next.index⟩ :: runs) q

/-- Bytes whose parentheses close those opened among them and `depth` before them, each in its turn:
at no point are more closed than are open, and in the end none is open. -/
def Closes (depth : Nat) (bs : List UInt8) : Prop :=
  (∀ front, front <+: bs → front.count ')'.toUInt8 ≤ depth + front.count '('.toUInt8) ∧
    bs.count ')'.toUInt8 = depth + bs.count '('.toUInt8

def bytesAt (ps : List Place) : List UInt8 :=
  ps.filterMap (·.rest.head?)

theorem bytesAt_cons {p : Place} {b : UInt8} {bs : List UInt8} (h : p.rest = b :: bs)
    (ps : List Place) : bytesAt (p :: ps) = b :: bytesAt ps := by
  rw [bytesAt, List.filterMap_cons_some (by rw [h, List.head?_cons])]
  rfl

theorem closes_nil : Closes 0 [] :=
  ⟨fun front h => by rw [List.prefix_nil.1 h]; exact Nat.zero_le _, rfl⟩

theorem Closes.cons {depth next : Nat} {b : UInt8} {bs : List UInt8} (h : Closes next bs)
    (hb : next + [b].count ')'.toUInt8 = depth + [b].count '('.toUInt8) :
    Closes depth (b :: bs) := by
  have hcount (front : List UInt8) (c : UInt8) :
      (b :: front).count c = [b].count c + front.count c := by
    rw [← List.count_append, List.singleton_append]
  obtain ⟨hfronts, hall⟩ := h
  refine ⟨fun front hfront => ?_, ?_⟩
  · rcases List.prefix_cons_iff.1 hfront with rfl | ⟨front, rfl, hfront⟩
    · exact Nat.zero_le _
    · have := hfronts front (List.cons_prefix_cons.1 hfront).2
      rw [hcount front, hcount front]
      omega
  · rw [hcount bs, hcount bs]
    omega

variable {p q : Place} {plain : List Place} {runs : List Span}

theorem walk_of_findClosing? {closing : List UInt8} (h : findClosing? closing p = some q) :
    ∃ plain runs, Walk p plain runs q ∧ ∀ x ∈ plain, ¬closing <+: x.rest := by
  fun_induction findClosing? closing p with
  | case1 => cases h
  | case2 => cases h
  | case3 p b bs hrest _ hquote next hskip _ ih =>
    obtain ⟨plain, runs, hwalk, hnone⟩ := ih h
    exact ⟨plain, _, .quoted hrest hquote hskip hwalk, hnone⟩
  | case4 =>
    cases h
    exact ⟨[], [], .here q, fun x hx => by cases hx⟩
  | case5 p b bs hrest _ hquote hclosing ih =>
    obtain ⟨plain, runs, hwalk, hnone⟩ := ih h
    refine ⟨p :: plain, runs, .byte hrest (Bool.eq_false_iff.2 hquote) hwalk, ?_⟩
    exact List.forall_mem_cons.2 ⟨fun hp => hclosing (List.isPrefixOf_iff_prefix.2 hp), hnone⟩

theorem walk_of_findParen? {depth : Nat} (hdepth : 0 < depth) (h : findParen? depth p = some q) :
    ∃ plain runs, Walk p plain runs q ∧ Closes (depth - 1) (bytesAt plain) := by
  have hopen : isByte Quoted.isQuote '('.toUInt8 = false := by decide
  have hclose : isByte Quoted.isQuote ')'.toUInt8 = false := by decide
  fun_induction findParen? depth p with
  | case1 => cases h
  | case2 => cases h
  | case3 depth p b bs hrest _ hquote next hskip _ ih =>
    obtain ⟨plain, runs, hwalk, hcloses⟩ := ih hdepth h
    exact ⟨plain, _, .quoted hrest hquote hskip hwalk, hcloses⟩
  | case4 depth p bs hrest _ _ ih =>
    obtain ⟨plain, runs, hwalk, hcloses⟩ := ih (Nat.succ_pos depth) h
    refine ⟨p :: plain, runs, .byte hrest hopen hwalk, ?_⟩
    rw [bytesAt_cons hrest]
    refine hcloses.cons ?_
    have hcount : ['('.toUInt8].count ')'.toUInt8 = 0 ∧ ['('.toUInt8].count '('.toUInt8 = 1 := by
      decide
    omega
  | case5 depth p bs hdone _ _ _ _ =>
    cases h
    rw [hdone]
    exact ⟨[], [], .here q, closes_nil⟩
  | case6 depth p bs hmore hrest _ _ _ ih =>
    obtain ⟨plain, runs, hwalk, hcloses⟩ := ih (Nat.pos_of_ne_zero hmore) h
    refine ⟨p :: plain, runs, .byte hrest hclose hwalk, ?_⟩
    rw [bytesAt_cons hrest]
    refine hcloses.cons ?_
    have hcount : [')'.toUInt8].count ')'.toUInt8 = 1 ∧ [')'.toUInt8].count '('.toUInt8 = 0 := by
      decide
    omega
  | case7 depth p b bs hrest _ hquote hb hb' ih =>
    obtain ⟨plain, runs, hwalk, hcloses⟩ := ih hdepth h
    refine ⟨p :: plain, runs, .byte hrest (Bool.eq_false_iff.2 hquote) hwalk, ?_⟩
    rw [bytesAt_cons hrest]
    refine hcloses.cons ?_
    rw [List.count_singleton, List.count_singleton, if_neg (by simpa using hb'),
      if_neg (by simpa using hb)]

@[simp] theorem index_forward (p : Place) (n : Nat) : (p.forward n).index = p.index + n := rfl

theorem forward_forward (p : Place) (m n : Nat) : (p.forward m).forward n = p.forward (m + n) := by
  simp only [forward, List.drop_drop, Nat.add_assoc]

theorem skipQuoted?_forward {quote : UInt8} {index : Nat} {bs : List UInt8} {next : Place}
    (h : skipQuoted? quote index bs = some next) : ∃ n, next = forward ⟨index, bs⟩ n := by
  fun_induction skipQuoted? quote index bs with
  | case1 => cases h
  | case2 => cases h
  | case3 index _ bs ih =>
    obtain ⟨n, rfl⟩ := ih h
    exact ⟨2 + n, (forward_forward ⟨index, _ :: _ :: bs⟩ 2 n)⟩
  | case4 index bs =>
    cases h
    exact ⟨1, rfl⟩
  | case5 index b bs _ _ ih =>
    obtain ⟨n, rfl⟩ := ih h
    exact ⟨1 + n, forward_forward ⟨index, b :: bs⟩ 1 n⟩

theorem Walk.forward (h : Walk p plain runs q) : ∃ n, q = p.forward n := by
  induction h with
  | here p => exact ⟨0, rfl⟩
  | @byte p _ _ _ _ _ _ _ _ ih =>
    obtain ⟨n, rfl⟩ := ih
    exact ⟨1 + n, forward_forward p 1 n⟩
  | @quoted p _ _ b bs _ _ hrest _ hskip _ ih =>
    obtain ⟨n, rfl⟩ := ih
    obtain ⟨k, rfl⟩ := skipQuoted?_forward hskip
    have hone : (⟨p.index + 1, bs⟩ : Place) = p.forward 1 := by
      rw [Place.forward, hrest]
      rfl
    rw [hone, forward_forward, forward_forward]
    exact ⟨_, rfl⟩

def on (cs : List Char) (i : Nat) : Place :=
  (ofChars 0 cs).forward i

theorem on_forward (cs : List Char) (i n : Nat) : (on cs i).forward n = on cs (i + n) :=
  forward_forward _ i n

@[simp] theorem on_index (cs : List Char) (i : Nat) : (on cs i).index = i :=
  Nat.zero_add i

theorem on_self (cs : List Char) (i : Nat) : on cs i = on cs (on cs i).index := by
  rw [on_index]

theorem on_append (cs ds : List Char) :
    on (cs ++ ds) (byteLength cs) = ofChars (byteLength cs) ds := by
  rw [on, forward_ofChars, Nat.zero_add]

theorem startsWithChar_on (cs : List Char) (i : Nat) (c : Char) :
    (on cs i).startsWithChar c = ((utf8 cs)[i]? == some c.toUInt8) := by
  rw [startsWithChar, on, Place.forward, List.head?_drop]
  rfl

theorem Walk.on {cs : List Char} {i : Nat} (h : Walk (on cs i) plain runs q) :
    ∃ j, q = Place.on cs j := by
  obtain ⟨n, rfl⟩ := h.forward
  exact ⟨i + n, on_forward cs i n⟩

end Place

open Place

/-- What was sought behind the opening of a token stands where the token says: the closing delimiter
behind the content of an interpolation, and behind arguments that a parenthesis opens the one that
closes it, unless their directive is among the mistakes. -/
def Lexed.Sought (m : Markers) (cs : List Char) (errors : List TokenError) : Lexed → Prop
  | .text _ => True
  | .interpolation escape content _ =>
    (on cs content.start).findClosing? (utf8 (m.delimiters escape).closing) =
      some (on cs content.stop)
  | .directive _ none _ => True
  | .directive _ (some args) span =>
    (utf8 cs)[args.start - 1]? = some '('.toUInt8 →
      (∀ e ∈ errors, e.fault = .unclosedArgs → e.start ≠ span.start) →
        (on cs (args.start - 1)).findParen? 0 = some (on cs args.stop)

theorem Lexed.Sought.mono {m : Markers} {cs : List Char} {errors errors' : List TokenError}
    {l : Lexed} (h : l.Sought m cs errors) (hsub : ∀ e ∈ errors, e ∈ errors') :
    l.Sought m cs errors' := by
  cases l with
  | text => trivial
  | interpolation => exact h
  | directive kind args span =>
    cases args with
    | none => trivial
    | some args => exact fun hopen hnone => h hopen fun e he => hnone e (hsub e he)

theorem Place.findParen?_of_opening {p : Place} (h : p.startsWithChar '(' = true) :
    p.findParen? 0 = (p.forward 1).findParen? 1 := by
  obtain ⟨index, rest⟩ := p
  obtain ⟨bs, rfl⟩ := List.head?_eq_some_iff.1 (beq_iff_eq.1 h)
  rw [findParen?_cons, if_neg (by decide), if_pos rfl]
  rfl

/-- Arguments that are scanned from a place of the text end at one. When a parenthesis opens them and
they are closed, it is by the parenthesis that was sought. -/
theorem ArgList.scan?_on {cs : List Char} {i : Nat} {kind : Directive} {args : ArgList}
    (hbefore : (utf8 cs)[i - 1]? ≠ some '('.toUInt8)
    (h : ArgList.scan? kind (on cs i) = some args) :
    (∃ j, args.after = on cs j) ∧
      ((utf8 cs)[args.span.start - 1]? = some '('.toUInt8 → args.closed = true →
        (on cs (args.span.start - 1)).findParen? 0 = some (on cs args.span.stop)) := by
  unfold ArgList.scan? at h
  simp only [skip, on_forward, on_index] at h
  generalize i + ((on cs i).run isInlineBlank).length = j at h
  split at h
  · rename_i hopen
    split at h
    · rename_i close hclose
      obtain ⟨plain, runs, hwalk, -⟩ :=
        walk_of_findParen? Nat.one_pos (findParen?_of_opening hopen ▸ hclose)
      rw [on_forward] at hwalk
      obtain ⟨k, rfl⟩ := hwalk.on
      cases h
      refine ⟨⟨_, on_forward _ _ _⟩, fun _ _ => ?_⟩
      rw [Nat.add_sub_cancel, on_index]
      exact hclose
    · cases h
      exact ⟨⟨_, on_forward _ _ _⟩, fun _ hclosed => by cases hclosed⟩
  · split at h
    · cases h
    · split at h
      · cases h
      · cases h
        exact ⟨⟨_, rfl⟩, fun hopen _ => absurd hopen hbefore⟩

namespace Scanner

variable {m : Markers} {cs : List Char} {s : Scanner}

/-- The scanner is at a place of the text, and what it sought behind the openings of its tokens
stands where they say. -/
structure Faithful (m : Markers) (cs : List Char) (s : Scanner) : Prop where
  place : s.toPlace = on cs s.index
  sought : ∀ l ∈ s.tokens, l.Sought m cs s.errors

theorem faithful_start : (start cs).Faithful m cs :=
  ⟨rfl, fun l hl => by cases hl⟩

namespace Faithful

theorem forward (h : s.Faithful m cs) (n : Nat) : s.forward n = on cs (s.index + n) := by
  rw [h.place, on_forward, on_index]

theorem flushed (h : s.Faithful m cs) : ∀ l ∈ s.flushed, l.Sought m cs s.errors := by
  intro l hl
  unfold Scanner.flushed at hl
  split at hl
  · rcases List.mem_cons.1 hl with rfl | hl
    · trivial
    · exact h.sought l hl
  · exact h.sought l hl

theorem moveTo (h : s.Faithful m cs) (i : Nat) : (s.moveTo (on cs i)).Faithful m cs :=
  ⟨on_self cs i, h.sought⟩

theorem push {l : Lexed} (h : s.Faithful m cs) (hl : l.Sought m cs s.errors) (i : Nat) :
    (s.push l (on cs i)).Faithful m cs :=
  ⟨on_self cs i, List.forall_mem_cons.2 ⟨hl, h.flushed⟩⟩

theorem fail (h : s.Faithful m cs) (fault : TokenFault) : (s.fail fault).Faithful m cs :=
  ⟨h.place, fun l hl => (h.sought l hl).mono fun _ he => .tail _ he⟩

theorem takeInterpolation (h : s.Faithful m cs) (escape : Bool) :
    (s.takeInterpolation escape (m.delimiters escape).bytes).Faithful m cs := by
  unfold Scanner.takeInterpolation
  simp only [h.forward]
  split
  · rename_i close hclose
    obtain ⟨plain, runs, hwalk, -⟩ := walk_of_findClosing? hclose
    obtain ⟨j, rfl⟩ := hwalk.on
    rw [on_forward]
    refine h.push ?_ _
    rw [Lexed.Sought, on_index, on_index]
    exact hclose
  · have hend := h.forward s.rest.length
    rw [finish, hend]
    exact (h.fail _).moveTo _

theorem getElem?_skip_ne (h : s.Faithful m cs) (hat : s.startsWithChar '@' = true) :
    (utf8 cs)[s.index + 1 + ((s.forward 1).run isNameChar).length - 1]? ≠ some '('.toUInt8 := by
  obtain ⟨bs, hbs⟩ := List.head?_eq_some_iff.1 (beq_iff_eq.1 hat)
  have hrun : (s.forward 1).run isNameChar = bs.takeWhile (isByte isNameChar) := by
    rw [Place.forward, hbs]
    rfl
  have hrest : (utf8 cs).drop s.index =
      ('@'.toUInt8 :: bs.takeWhile (isByte isNameChar)) ++ bs.dropWhile (isByte isNameChar) := by
    rw [List.cons_append, List.takeWhile_append_dropWhile, ← hbs]
    exact (congrArg Place.rest h.place).symm
  rw [hrun, Nat.add_right_comm, Nat.add_sub_cancel, ← List.getElem?_drop, hrest,
    List.getElem?_append_left (by simp)]
  intro hparen
  rcases List.mem_cons.1 (List.mem_of_getElem? hparen) with heq | hmem
  · exact absurd heq (by decide)
  · exact absurd (List.all_eq_true.1 List.all_takeWhile _ hmem) (by decide)

theorem takeAt (h : s.Faithful m cs) (hat : s.startsWithChar '@' = true) :
    s.takeAt.Faithful m cs := by
  unfold Scanner.takeAt
  simp only
  split
  · rw [h.forward, on_forward, skip, on_forward]
    exact ⟨on_self cs _, h.flushed⟩
  · simp only [skip, h.forward, on_forward]
    split
    · exact h.moveTo _
    · rename_i kind _
      split
      · split
        · exact h.moveTo _
        · rename_i args hargs
          have hbefore := h.getElem?_skip_ne hat
          rw [h.forward] at hbefore
          obtain ⟨⟨j, hafter⟩, hsought⟩ := ArgList.scan?_on hbefore hargs
          rw [hafter]
          cases hclosed : args.closed with
          | true =>
            refine h.push ?_ j
            exact fun hopen _ => hsought hopen hclosed
          | false =>
            refine (h.fail .unclosedArgs).push ?_ j
            exact fun _ hnone => absurd rfl (hnone _ List.mem_cons_self rfl)
      · rw [on_index]
        refine h.push ?_ _
        trivial

theorem step (h : s.Faithful m cs) : (s.step m.raw.bytes m.escaped.bytes).Faithful m cs := by
  unfold Scanner.step
  split
  · exact h.takeAt ‹_›
  · split
    · exact h.takeInterpolation true
    · split
      · exact h.takeInterpolation false
      · rw [h.forward]
        exact h.moveTo _

theorem run (h : s.Faithful m cs) : (s.run m.raw.bytes m.escaped.bytes).Faithful m cs := by
  fun_induction Scanner.run m.raw.bytes m.escaped.bytes s with
  | case1 s _ _ ih => exact ih h.step
  | case2 => exact h

end Faithful

end Scanner

theorem sought_of_mem_scan {m : Markers} {cs : List Char} {l : Lexed}
    (h : l ∈ (scan m cs).tokens) : l.Sought m cs (scan m cs).errors := by
  have hend : ((Scanner.start cs).run m.raw.bytes m.escaped.bytes).Faithful m cs :=
    Scanner.faithful_start.run
  refine (hend.flushed l (List.mem_reverse.1 h)).mono fun e he => ?_
  exact List.mem_reverse.2 he

end Templating
