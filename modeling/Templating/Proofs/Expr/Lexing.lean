import Mathlib
import Templating.Expr.Token
import Templating.Template.Scanner

/-!
# Quoted runs under the lexer of expressions

`Quoted.Runs` are the quoted runs of a text in which each of them closes. The lexer reads every run
as one token and finds no quote elsewhere: a token that is no quoted text is made of characters of
which none is a quote (`Expr.readToken_ok`). So the quoted tokens it reads are the runs, in their
order, up to where it fails, and it never fails for want of a closing quote (`Expr.reading_runs`).

`tokens` keeps nothing of what was read before a mistake; `reading` is the same reader that does.
-/

namespace Templating

open Text

namespace Text.Quoted

/-- The quoted runs of a text that begins at `offset`, from the opening quote of each to behind its
closing one. There are none unless each of them closes. -/
inductive Runs : Nat → List Char → List Span → Prop where
  | nil (offset : Nat) : Runs offset [] []
  | plain {offset c cs runs} (hc : isQuote c = false) (h : Runs (offset + c.utf8Size) cs runs) :
      Runs offset (c :: cs) runs
  | quoted {offset c cs run rest runs} (hc : isQuote c = true)
      (hsplit : split? c cs = some (run, rest))
      (h : Runs (offset + byteLength (c :: run)) rest runs) :
      Runs offset (c :: cs) (⟨offset, offset + byteLength (c :: run)⟩ :: runs)

variable {offset : Nat} {cs : List Char} {runs : List Span}

theorem Runs.of_append {front : List Char} (hfront : ∀ c ∈ front, isQuote c = false)
    (h : Runs offset (front ++ cs) runs) : Runs (offset + byteLength front) cs runs := by
  induction front generalizing offset with
  | nil => exact h
  | cons c front ih =>
    obtain ⟨hc, hall⟩ := List.forall_mem_cons.1 hfront
    cases h with
    | plain _ h =>
      rw [byteLength_cons, ← Nat.add_assoc]
      exact ih hall h
    | quoted hquote => exact absurd (hc.symm.trans hquote) Bool.false_ne_true

theorem Runs.of_isQuote {c : Char} (hc : isQuote c = true) (h : Runs offset (c :: cs) runs) :
    ∃ run rest later, split? c cs = some (run, rest) ∧
      runs = ⟨offset, offset + byteLength (c :: run)⟩ :: later ∧
      Runs (offset + byteLength (c :: run)) rest later := by
  cases h with
  | plain hplain => exact absurd (hplain.symm.trans hc) Bool.false_ne_true
  | quoted _ hsplit h => exact ⟨_, _, _, hsplit, rfl, h⟩

end Text.Quoted

namespace Expr

open Text.Quoted

theorem isQuote_eq_false {q : Char → Bool} (hsingle : q '\x27' = false) (hdouble : q '\x22' = false)
    {c : Char} (h : q c = true) : isQuote c = false := by
  rw [Bool.eq_false_iff]
  intro hquote
  simp only [isQuote, Bool.or_eq_true, beq_iff_eq] at hquote
  rcases hquote with rfl | rfl
  · exact absurd (hsingle.symm.trans h) Bool.false_ne_true
  · exact absurd (hdouble.symm.trans h) Bool.false_ne_true

/-- No quote stands between the front of `cs` and `rest`, which is what is left of it. -/
def Clear (cs rest : List Char) : Prop :=
  ∃ front, cs = front ++ rest ∧ ∀ c ∈ front, isQuote c = false

namespace Clear

variable {c : Char} {cs ds rest : List Char}

theorem refl (cs : List Char) : Clear cs cs :=
  ⟨[], rfl, fun c hc => by cases hc⟩

theorem cons (hc : isQuote c = false) (h : Clear cs rest) : Clear (c :: cs) rest := by
  obtain ⟨front, rfl, hfront⟩ := h
  exact ⟨c :: front, rfl, List.forall_mem_cons.2 ⟨hc, hfront⟩⟩

theorem trans (h : Clear cs ds) (h' : Clear ds rest) : Clear cs rest := by
  obtain ⟨front, rfl, hfront⟩ := h
  obtain ⟨front', rfl, hfront'⟩ := h'
  exact ⟨front ++ front', (List.append_assoc ..).symm, List.forall_mem_append.2 ⟨hfront, hfront'⟩⟩

theorem dropWhile {q : Char → Bool} (hsingle : q '\x27' = false) (hdouble : q '\x22' = false)
    (cs : List Char) : Clear cs (cs.dropWhile q) :=
  ⟨cs.takeWhile q, List.takeWhile_append_dropWhile.symm, fun c hc =>
    isQuote_eq_false hsingle hdouble (List.all_eq_true.1 List.all_takeWhile c hc)⟩

end Clear

theorem clear_spanSign (cs : List Char) : Clear cs (Number.spanSign cs).2 := by
  unfold Number.spanSign
  split
  · exact .cons rfl (.refl _)
  · exact .cons rfl (.refl _)
  · exact .refl _

theorem clear_spanExponent (cs : List Char) : Clear cs (spanExponent cs).2 := by
  cases cs with
  | nil => exact .refl _
  | cons c cs =>
    simp only [spanExponent]
    split
    · rename_i h
      have hc : isQuote c = false := by
        rcases h.1 with rfl | rfl <;> rfl
      exact .cons hc ((clear_spanSign cs).trans (.dropWhile rfl rfl _))
    · exact .refl _

theorem clear_spanNumber (cs : List Char) : Clear cs (spanNumber cs).2 :=
  (Clear.dropWhile rfl rfl cs).trans (clear_spanExponent _)

theorem clear_of_readSymbol? {cs rest : List Char} {kind : TokenKind}
    (h : readSymbol? cs = some (kind, rest)) : (∀ s, kind ≠ .text s) ∧ Clear cs rest := by
  unfold readSymbol? at h
  split at h <;> cases h <;> refine ⟨fun s hs => (by cases hs), ?_⟩
  all_goals repeat first | exact .refl _ | refine .cons rfl ?_

/-- A token off the front of a text is a quoted run, or no text and has no quote in it. -/
theorem readToken_ok {c : Char} {cs : List Char} {token : Consumed (c :: cs) TokenKind}
    (h : readToken c cs = .ok token) :
    (isQuote c = true ∧ ∃ s run, token.value = .text s ∧ split? c cs = some (run, token.rest)) ∨
      ((∀ s, token.value ≠ .text s) ∧ Clear (c :: cs) token.rest) := by
  have hident (cs : List Char) : Clear cs (cs.dropWhile isIdentChar) := .dropWhile rfl rfl cs
  unfold readToken at h
  split at h
  · rename_i hc
    refine .inr ?_
    split at h
    · split at h
      · cases h
        exact ⟨fun s hs => (by cases hs), .cons (hc ▸ rfl) (hident _)⟩
      · cases h
    · cases h
  · split at h
    · rename_i hquote
      split at h
      · rename_i text rest hread
        cases h
        have hrest := read?_rest c cs
        rw [hread] at hrest
        obtain ⟨⟨run, rest'⟩, hsplit, heq⟩ := Option.map_eq_some_iff.1 hrest.symm
        obtain rfl : rest' = rest := heq
        exact .inl ⟨hquote, _, run, rfl, hsplit⟩
      · cases h
    · rename_i hquote
      have hquote := Bool.eq_false_iff.2 hquote
      refine .inr ?_
      split at h
      · cases h
        exact ⟨fun s hs => (by cases hs), .cons hquote (clear_spanNumber cs)⟩
      · split at h
        · cases h
          exact ⟨fun s hs => (by cases hs), .cons hquote (hident cs)⟩
        · split at h
          · rename_i hsymbol
            cases h
            exact clear_of_readSymbol? hsymbol
          · cases h

theorem readToken_error {c : Char} {cs : List Char}
    (h : readToken c cs = .error .unterminatedText) : isQuote c = true ∧ split? c cs = none := by
  unfold readToken at h
  split at h
  · split at h
    · split at h <;> cases h
    · cases h
  · split at h
    · rename_i hquote
      split at h
      · cases h
      · rename_i hread
        have hrest := read?_rest c cs
        rw [hread] at hrest
        exact ⟨hquote, Option.map_eq_none_iff.1 hrest.symm⟩
    · split at h
      · cases h
      · split at h
        · cases h
        · split at h <;> cases h

/-- The tokens that are read off a text that begins at the byte offset `offset`, and the mistake that
ends the reading before the text does. -/
def reading (offset : Nat) : List Char → List Token × Option ExprError
  | [] => ([], none)
  | c :: cs =>
    if isGap c then reading (offset + c.utf8Size) cs
    else
      match readToken c cs with
      | .error fault => ([], some ⟨fault, offset⟩)
      | .ok token =>
        let stop := offset + (byteLength (c :: cs) - byteLength token.rest)
        let read := reading stop token.rest
        (⟨token.value, offset, stop⟩ :: read.1, read.2)
termination_by cs => cs.length
decreasing_by
  · exact Nat.lt_succ_self _
  · exact token.shorter

theorem tokensFrom_eq_reading (offset : Nat) (cs : List Char) :
    tokensFrom offset cs = (reading offset cs).2.elim (.ok (reading offset cs).1) .error := by
  fun_induction reading offset cs with
  | case1 => rw [tokensFrom, Option.elim_none]
  | case2 offset c cs hgap ih => rw [tokensFrom, if_pos hgap, ih]
  | case3 offset c cs hgap fault hread =>
    rw [tokensFrom, if_neg hgap]
    simp only [hread, Option.elim_some]
  | case4 offset c cs hgap token hread stop read ih =>
    rw [tokensFrom, if_neg hgap]
    simp only [hread]
    rw [ih]
    cases read.2 <;> rfl

def Token.quotedSpan? (base : Nat) (t : Token) : Option Span :=
  match t.kind with
  | .text _ => some ⟨base + t.start, base + t.stop⟩
  | _ => none

theorem Token.quotedSpan?_of_text {s : String} {t : Token} (h : t.kind = .text s) (base : Nat) :
    t.quotedSpan? base = some ⟨base + t.start, base + t.stop⟩ := by
  rw [quotedSpan?, h]

theorem Token.quotedSpan?_of_not_text {t : Token} (h : ∀ s, t.kind ≠ .text s) (base : Nat) :
    t.quotedSpan? base = none := by
  unfold quotedSpan?
  split
  · rename_i s hs
    exact absurd hs (h s)
  · rfl

def quotedSpans (base : Nat) (ts : List Token) : List Span :=
  ts.filterMap (Token.quotedSpan? base)

theorem byteLength_sub {cs front rest : List Char} (h : cs = front ++ rest) :
    byteLength cs - byteLength rest = byteLength front := by
  rw [h, byteLength_append, Nat.add_sub_cancel]

/-- The quoted texts that are read are the quoted runs in their order, all of them unless a mistake
ends the reading, and that mistake is not that a run does not close. -/
theorem reading_runs (base offset : Nat) {cs : List Char} {runs : List Span}
    (h : Runs (base + offset) cs runs) :
    ∃ later, runs = quotedSpans base (reading offset cs).1 ++ later ∧
      ((reading offset cs).2 = none → later = []) ∧
      ∀ e ∈ (reading offset cs).2, e.fault ≠ .unterminatedText := by
  fun_induction reading offset cs generalizing runs with
  | case1 offset =>
    cases h
    exact ⟨[], rfl, fun _ => rfl, fun e he => by cases he⟩
  | case2 offset c cs hgap ih =>
    have hclear : Runs (base + offset + byteLength [c]) cs runs :=
      Runs.of_append (List.forall_mem_singleton.2 (isQuote_eq_false rfl rfl hgap)) h
    rw [byteLength_cons, byteLength_nil, Nat.add_zero, Nat.add_assoc] at hclear
    exact ih hclear
  | case3 offset c cs hgap fault hread =>
    refine ⟨runs, rfl, fun hnone => (by cases hnone), fun e he => ?_⟩
    obtain rfl := Option.mem_some.1 he
    rintro rfl
    obtain ⟨hquote, hopen⟩ := readToken_error hread
    obtain ⟨run, rest, later, hsplit, -, -⟩ := h.of_isQuote hquote
    rw [hopen] at hsplit
    cases hsplit
  | case4 offset c cs hgap token hread stop read =>
    rename_i ih
    rcases readToken_ok hread with ⟨hquote, s, run, htext, hsplit⟩ | ⟨htext, front, hfront, hclear⟩
    · obtain ⟨run', rest, others, hsplit', rfl, hrest⟩ := h.of_isQuote hquote
      rw [hsplit'] at hsplit
      obtain ⟨rfl, rfl⟩ := Prod.mk.inj (Option.some.inj hsplit)
      have happend : c :: cs = c :: run' ++ token.rest := by
        rw [List.cons_append, split?_append hsplit']
      have hstop : stop = offset + byteLength (c :: run') :=
        congrArg (offset + ·) (byteLength_sub happend)
      rw [Nat.add_assoc, ← hstop] at hrest
      obtain ⟨left, hleft, hall, hclosed⟩ := ih hrest
      refine ⟨left, ?_, hall, hclosed⟩
      rw [quotedSpans, List.filterMap_cons_some (Token.quotedSpan?_of_text htext base),
        List.cons_append, hleft, Nat.add_assoc, ← hstop]
      rfl
    · have hstop : stop = offset + byteLength front := congrArg (offset + ·) (byteLength_sub hfront)
      rw [hfront] at h
      have hrest := h.of_append hclear
      rw [Nat.add_assoc, ← hstop] at hrest
      obtain ⟨left, hleft, hall, hclosed⟩ := ih hrest
      refine ⟨left, ?_, hall, hclosed⟩
      rw [quotedSpans, List.filterMap_cons_none (Token.quotedSpan?_of_not_text htext base)]
      exact hleft

/-- The lexer ends quoted texts where the runs end, in a text that begins at `base`: it finds none of
them open, it covers all of them when it reads the whole text, and what it reads before a mistake are
the first of them. -/
structure Lexes (base : Nat) (cs : List Char) (runs : List Span) : Prop where
  closed : ∀ e, tokens (String.ofList cs) = .error e → e.fault ≠ .unterminatedText
  all : ∀ ts, tokens (String.ofList cs) = .ok ts → quotedSpans base ts = runs
  read : quotedSpans base (reading 0 cs).1 <+: runs

theorem lexes_runs {base : Nat} {cs : List Char} {runs : List Span} (h : Runs base cs runs) :
    Lexes base cs runs := by
  obtain ⟨later, hruns, hall, hclosed⟩ := reading_runs base 0 h
  have htokens : tokens (String.ofList cs) =
      (reading 0 cs).2.elim (.ok (reading 0 cs).1) .error := by
    rw [tokens, String.toList_ofList, tokensFrom_eq_reading]
  rw [hruns]
  refine ⟨fun e he => ?_, fun ts hts => ?_, List.prefix_append _ _⟩
  · cases hend : (reading 0 cs).2 with
    | none =>
      rw [htokens, hend] at he
      cases he
    | some e' =>
      rw [htokens, hend] at he
      cases he
      exact hclosed e hend
  · cases hend : (reading 0 cs).2 with
    | none =>
      rw [htokens, hend] at hts
      cases hts
      rw [hall hend, List.append_nil]
    | some e =>
      rw [htokens, hend] at hts
      cases hts

end Expr

end Templating
