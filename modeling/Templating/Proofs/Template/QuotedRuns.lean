import Templating.Proofs.Expr.Lexing
import Templating.Proofs.Template.Partition
import Templating.Proofs.Template.Rows
import Templating.Proofs.Template.Walk

/-!
# The scanner and the lexer see the same quoted runs

The scanner of templates goes over bytes and takes two of them for a backslash and what it hides,
the lexer of expressions goes over characters and decodes what it reads. A way of the scanner over
whole characters passes the quoted runs of these characters (`Place.Walk.quotedRuns`), and those the
lexer reads (`Expr.lexes_runs`). So they agree on the content of every interpolation, and on the
arguments of every directive that closes them (`quoted_runs_agree`).
-/

namespace Templating

open Text Place

namespace Place.Walk

variable {p q : Place} {plain : List Place} {runs : List Span} {b : UInt8} {bs : List UInt8}

theorem index_le (h : Walk p plain runs q) : p.index ≤ q.index := by
  obtain ⟨n, rfl⟩ := h.forward
  exact Nat.le_add_right _ _

theorem runs_eq_nil (h : Walk p plain runs q) (hle : q.index ≤ p.index) : runs = [] := by
  cases h with
  | here => rfl
  | byte _ _ h =>
    have := h.index_le
    rw [index_forward] at this
    omega
  | quoted _ _ hskip h =>
    have := h.index_le
    obtain ⟨n, rfl⟩ := skipQuoted?_forward hskip
    rw [index_forward] at this
    simp only at this
    omega

theorem of_isQuote (h : Walk p plain runs q) (hrest : p.rest = b :: bs)
    (hb : isByte Quoted.isQuote b = true) (hlt : p.index < q.index) :
    ∃ next later, skipQuoted? b (p.index + 1) bs = some next ∧
      runs = ⟨p.index, next.index⟩ :: later ∧ Walk next plain later q := by
  cases h with
  | here => exact absurd hlt (Nat.lt_irrefl _)
  | byte hrest' hplain =>
    cases hrest.symm.trans hrest'
    exact absurd (hplain.symm.trans hb) Bool.false_ne_true
  | quoted hrest' _ hskip h =>
    cases hrest.symm.trans hrest'
    exact ⟨_, _, hskip, rfl, h⟩

theorem of_byte (h : Walk p plain runs q) (hrest : p.rest = b :: bs)
    (hb : isByte Quoted.isQuote b = false) (hlt : p.index < q.index) :
    ∃ others, Walk (p.forward 1) others runs q := by
  cases h with
  | here => exact absurd hlt (Nat.lt_irrefl _)
  | byte _ _ h => exact ⟨_, h⟩
  | quoted hrest' hquote =>
    cases hrest.symm.trans hrest'
    exact absurd (hb.symm.trans hquote) Bool.false_ne_true

theorem of_append {index : Nat} {l : List UInt8} (h : Walk ⟨index, l ++ bs⟩ plain runs q)
    (hl : ∀ b ∈ l, isByte Quoted.isQuote b = false) (hle : index + l.length ≤ q.index) :
    ∃ others, Walk ⟨index + l.length, bs⟩ others runs q := by
  induction l generalizing index plain with
  | nil => exact ⟨plain, h⟩
  | cons b l ih =>
    obtain ⟨hb, hall⟩ := List.forall_mem_cons.1 hl
    rw [List.length_cons] at hle
    obtain ⟨others, hnext⟩ := h.of_byte rfl hb (by simp only; omega)
    have hlength : index + (b :: l).length = index + 1 + l.length := by
      rw [List.length_cons, Nat.add_assoc, Nat.add_comm 1]
    rw [hlength]
    exact ih hnext hall (by omega)

variable {index : Nat} {c : Char} {cs : List Char}

theorem of_char (h : Walk (ofChars index (c :: cs)) plain runs q) (hc : Quoted.isQuote c = false)
    (hle : index + c.utf8Size ≤ q.index) :
    ∃ others, Walk (ofChars (index + c.utf8Size) cs) others runs q := by
  have hbytes : ∀ b ∈ String.utf8EncodeChar c, isByte Quoted.isQuote b = false := fun b hb =>
    (isByte_of_mem isByteClass_isQuote hb).trans hc
  rw [← String.length_utf8EncodeChar] at hle ⊢
  exact of_append h hbytes hle

theorem of_quote (h : Walk (ofChars index (c :: cs)) plain runs q) (hc : Quoted.isQuote c = true)
    (hlt : index < q.index) :
    ∃ run rest later, Quoted.split? c cs = some (run, rest) ∧
      runs = ⟨index, index + byteLength (c :: run)⟩ :: later ∧
      Walk (ofChars (index + byteLength (c :: run)) rest) plain later q := by
  obtain ⟨hascii, hne⟩ := isAscii_of_isQuote hc
  obtain ⟨next, later, hskip, rfl, hnext⟩ := h.of_isQuote (utf8_cons_of_isAscii hascii cs)
    ((isByte_toUInt8 isByteClass_isQuote hascii).trans hc) hlt
  rw [ofChars_index, skipQuoted?_utf8 hascii hne] at hskip
  obtain ⟨⟨run, rest⟩, hsplit, rfl⟩ := Option.map_eq_some_iff.1 hskip
  have hplace : behind (index + 1) [] (run, rest) = ofChars (index + byteLength (c :: run)) rest := by
    rw [behind, List.nil_append, byteLength_cons, utf8Size_of_isAscii hascii, ← Nat.add_assoc]
  rw [hplace] at hnext ⊢
  exact ⟨run, rest, later, hsplit, rfl, hnext⟩

/-- A way over whole characters passes the quoted runs of these characters. -/
theorem quotedRuns {content rest : List Char}
    (h : Walk (ofChars index (content ++ rest)) plain runs
      (ofChars (index + byteLength content) rest)) : Quoted.Runs index content runs := by
  induction hn : content.length using Nat.strong_induction_on
    generalizing index content plain runs with
  | _ n ih =>
  cases content with
  | nil =>
    rw [h.runs_eq_nil (Nat.le_refl _)]
    exact .nil index
  | cons c ds =>
    have hpos := c.utf8Size_pos
    rw [byteLength_cons] at h
    cases hc : Quoted.isQuote c with
    | false =>
      obtain ⟨others, hnext⟩ := h.of_char hc (by rw [ofChars_index]; omega)
      rw [← Nat.add_assoc] at hnext
      refine .plain hc (ih ds.length ?_ hnext rfl)
      rw [← hn]
      exact Nat.lt_succ_self _
    | true =>
      obtain ⟨run, after, later, hsplit, rfl, hnext⟩ := h.of_quote hc (by
        rw [ofChars_index]
        omega)
      -- The run ends within the content, since the way goes on from behind it.
      have hle := hnext.index_le
      rw [ofChars_index, ofChars_index, byteLength_cons] at hle
      obtain ⟨others, rfl, rfl⟩ :=
        exists_of_append_eq (Quoted.split?_append hsplit) (by omega)
      have hstop : index + (c.utf8Size + byteLength (run ++ others)) =
          index + byteLength (c :: run) + byteLength others := by
        simp only [byteLength_cons, byteLength_append, Nat.add_assoc]
      rw [hstop] at hnext
      refine .quoted hc (Quoted.split?_run_append hsplit others) (ih others.length ?_ hnext rfl)
      rw [← hn, List.length_cons, List.length_append]
      omega

end Place.Walk

theorem Place.on_of_standsAt {cs chars : List Char} {i : Nat} (h : StandsAt 0 cs chars i) :
    ∃ after, on cs i = ofChars i (chars ++ after) ∧
      on cs (i + byteLength chars) = ofChars (i + byteLength chars) after := by
  obtain ⟨before, after, rfl, rfl⟩ := h
  rw [Nat.zero_add, ← byteLength_append]
  refine ⟨after, ?_, on_append _ _⟩
  rw [List.append_assoc]
  exact on_append _ _

/-- Where the scanner goes over the characters between two offsets, the lexer sees the runs that the
scanner passes. -/
theorem Span.Holds.lexes {span : Span} {cs chars : List Char} {plain : List Place}
    {runs : List Span} (hspan : span.Holds cs chars)
    (h : Walk (on cs span.start) plain runs (on cs span.stop)) :
    Expr.Lexes span.start (span.slice cs) runs := by
  obtain ⟨after, hstart, hstop⟩ := on_of_standsAt hspan.start
  rw [hspan.stop, hstart, hstop] at h
  rw [hspan.slice_eq]
  exact Expr.lexes_runs h.quotedRuns

theorem Lexed.shaped_of_mem_scan {m : Markers} {cs : List Char} {l : Lexed}
    (h : l ∈ (scan m cs).tokens) : l.Shaped m cs :=
  (Token.fits_toToken h).shaped ((Token.covers_tokens m cs).standsAt (List.mem_map_of_mem h)).2

/-- The scanner and the lexer agree on where quoted runs end, whatever the template and its
delimiters. From the opening of an interpolation the scanner finds the closing delimiter; the way
there passes the runs that the lexer reads in the content, and at none of its other bytes stands the
delimiter. Likewise with the arguments that a directive has in parentheses, unless it is reported
not to close them, and the parentheses among their other bytes are balanced. -/
theorem quoted_runs_agree (m : Markers) (cs : List Char) :
    (∀ escape content span, .interpolation escape content span ∈ (scan m cs).tokens →
      (on cs content.start).findClosing? (utf8 (m.delimiters escape).closing) =
          some (on cs content.stop) ∧
        ∃ plain runs, Walk (on cs content.start) plain runs (on cs content.stop) ∧
          Expr.Lexes content.start (content.slice cs) runs ∧
          ∀ p ∈ plain, ¬utf8 (m.delimiters escape).closing <+: p.rest) ∧
    ∀ kind args span, .directive kind (some args) span ∈ (scan m cs).tokens →
      (utf8 cs)[args.start - 1]? = some '('.toUInt8 →
      (∀ e ∈ (scan m cs).errors, e.fault = .unclosedArgs → e.start ≠ span.start) →
        (on cs args.start).findParen? 1 = some (on cs args.stop) ∧
          ∃ plain runs, Walk (on cs args.start) plain runs (on cs args.stop) ∧
            Expr.Lexes args.start (args.slice cs) runs ∧ Closes 0 (bytesAt plain) := by
  constructor
  · intro escape content span hl
    have hfound := sought_of_mem_scan hl
    obtain ⟨chars, -, hcontent, -, -⟩ := Lexed.shaped_of_mem_scan hl
    obtain ⟨plain, runs, hwalk, hnone⟩ := walk_of_findClosing? hfound
    exact ⟨hfound, plain, runs, hwalk, hcontent.lexes hwalk, hnone⟩
  · intro kind args span hl hparen hclosed
    obtain ⟨before, chars, after, -, hargs, hstart, -⟩ := Lexed.shaped_of_mem_scan hl
    have hpos : 1 ≤ args.start := by
      have := Char.utf8Size_pos '@'
      rw [hstart, List.cons_append, byteLength_cons]
      omega
    have hopening : (on cs (args.start - 1)).startsWithChar '(' = true := by
      rw [startsWithChar_on, hparen, beq_self_eq_true]
    have hfound := sought_of_mem_scan hl hparen hclosed
    rw [findParen?_of_opening hopening, on_forward, Nat.sub_add_cancel hpos] at hfound
    obtain ⟨plain, runs, hwalk, hcloses⟩ := walk_of_findParen? Nat.one_pos hfound
    exact ⟨hfound, plain, runs, hwalk, hargs.lexes hwalk, hcloses⟩

/-- An interpolation with its closing delimiter and an escaped quote in a quoted run, and a condition
with a parenthesis in one. -/
def quotedPage : List Char :=
  "\x7b\x7b $x === \x22\x7d\x7dé\x5c\x22\x22 \x7d\x7d@if(f(')', $y)) z".toList

theorem quoted_runs_agree_page :
    (.interpolation false ⟨2, 19⟩ ⟨0, 21⟩ ∈ (scan Markers.standard quotedPage).tokens ∧
      (on quotedPage 2).findClosing? (utf8 Markers.standard.raw.closing) =
          some (on quotedPage 19) ∧
        ∃ plain runs, Walk (on quotedPage 2) plain runs (on quotedPage 19) ∧
          Expr.Lexes 2 (Span.slice ⟨2, 19⟩ quotedPage) runs ∧
          ∀ p ∈ plain, ¬utf8 Markers.standard.raw.closing <+: p.rest) ∧
    .directive .openIf (some ⟨25, 35⟩) ⟨21, 36⟩ ∈ (scan Markers.standard quotedPage).tokens ∧
      (utf8 quotedPage)[24]? = some '('.toUInt8 ∧
      (∀ e ∈ (scan Markers.standard quotedPage).errors, e.fault = .unclosedArgs → e.start ≠ 21) ∧
        (on quotedPage 25).findParen? 1 = some (on quotedPage 35) ∧
          ∃ plain runs, Walk (on quotedPage 25) plain runs (on quotedPage 35) ∧
            Expr.Lexes 25 (Span.slice ⟨25, 35⟩ quotedPage) runs ∧ Closes 0 (bytesAt plain) := by
  have htokens : (scan Markers.standard quotedPage).tokens =
      [.interpolation false ⟨2, 19⟩ ⟨0, 21⟩, .directive .openIf (some ⟨25, 35⟩) ⟨21, 36⟩,
        .text ⟨36, 38⟩] := by cbv
  have herrors : (scan Markers.standard quotedPage).errors = [] := by cbv
  have hcontent : .interpolation false ⟨2, 19⟩ ⟨0, 21⟩ ∈
      (scan Markers.standard quotedPage).tokens := by simp [htokens]
  have hargs : .directive .openIf (some ⟨25, 35⟩) ⟨21, 36⟩ ∈
      (scan Markers.standard quotedPage).tokens := by simp [htokens]
  have hparen : (utf8 quotedPage)[24]? = some '('.toUInt8 := by cbv
  have hclosed : ∀ e ∈ (scan Markers.standard quotedPage).errors,
      e.fault = .unclosedArgs → e.start ≠ 21 := by simp [herrors]
  obtain ⟨hcontents, harguments⟩ := quoted_runs_agree Markers.standard quotedPage
  exact ⟨⟨hcontent, hcontents _ _ _ hcontent⟩, hargs, hparen, hclosed,
    harguments _ _ _ hargs hparen hclosed⟩

end Templating
