import Mathlib
import Templating.Proofs.Expr.Lexing
import Templating.Proofs.Expr.Sound

/-!
# Spelling tokens

`TokenKind.spelling` writes a token down, and the lexer reads it back as long as the character behind
it is not taken for more of the same token (`TokenKind.joins`). So tokens that are spelled one after
the other, with or without blanks between them (`spaced`), are read back when none joins the next.
-/

namespace Templating

open Text

namespace Text.Quoted

/-- A text as it is written between two quotes: a backslash stands before each backslash and each
such quote. -/
def protect (quote : Char) : List Char → List Char
  | [] => []
  | c :: cs => (if c = quote ∨ c = '\x5c' then ['\x5c', c] else [c]) ++ protect quote cs

theorem split?_protect {quote : Char} (hquote : quote ≠ '\x5c') (cs rest : List Char) :
    split? quote (protect quote cs ++ quote :: rest) = some (protect quote cs ++ [quote], rest) := by
  induction cs with
  | nil => simp [protect, split?, hquote]
  | cons c cs ih =>
    by_cases hc : c = quote ∨ c = '\x5c'
    · simp [protect, hc, split?, ih]
    · obtain ⟨hne, hslash⟩ := not_or.1 hc
      simp [protect, hne, hslash, split?, ih]

theorem read?_protect {quote : Char} (hquote : quote ≠ '\x5c') (cs rest : List Char) :
    read? quote (protect quote cs ++ quote :: rest) = some (cs, rest) := by
  induction cs with
  | nil => simp [protect, read?, hquote]
  | cons c cs ih =>
    by_cases hc : c = quote ∨ c = '\x5c'
    · simp [protect, hc, read?, ih, unescape]
    · obtain ⟨hne, hslash⟩ := not_or.1 hc
      simp [protect, hne, hslash, read?, ih]

end Text.Quoted

namespace Expr

def isIdentifier (name : String) : Bool :=
  match name.toList with
  | [] => false
  | c :: cs => isIdentStart c && cs.all isIdentChar

/-- Decimal digits, at least one, perhaps behind a minus sign. -/
def isIntegerText (spelling : String) : Bool :=
  match spelling.toList with
  | [] => false
  | c :: cs => (c.isDigit || c == '-' && !cs.isEmpty) && cs.all Char.isDigit

namespace TokenKind

/-- A token as it is written. A text stands between single quotes. -/
def spelling : TokenKind → List Char
  | .variable name => '$' :: name.toList
  | .ident name => name.toList
  | .text value => '\x27' :: Quoted.protect '\x27' value.toList ++ ['\x27']
  | .number spelling => spelling.toList
  | .leftBracket => ['[']
  | .rightBracket => [']']
  | .leftParen => ['(']
  | .rightParen => [')']
  | .comma => [',']
  | .bang => ['!']
  | .andAnd => ['&', '&']
  | .orOr => ['|', '|']
  | .fatArrow => ['=', '>']
  | .comparison op => op.symbol.toList

def isSpellable : TokenKind → Bool
  | .variable name => isIdentifier name
  | .ident name => isIdentifier name
  | .number spelling => isIntegerText spelling
  | _ => true

/-- Whether a character right behind the token could be taken for more of it. -/
def joins : TokenKind → Char → Bool
  | .variable _, c | .ident _, c => isIdentChar c
  | .number _, c => isIdentChar c || c == '.'
  | .bang, c | .comparison _, c => c == '='
  | _, _ => false

end TokenKind

/-! ## Reading one token -/

/-- The text begins with the token, and `rest` follows it. -/
def Fronts (k : TokenKind) (cs rest : List Char) : Prop :=
  ∃ c ds, ∃ token : Consumed (c :: ds) TokenKind,
    cs = c :: ds ∧ isGap c = false ∧ readToken c ds = .ok token ∧ token.value = k ∧
      token.rest = rest

variable {c : Char} {rest : List Char}

theorem takeWhile_append_stop {q : Char → Bool} {cs rest : List Char} (hcs : cs.all q = true)
    (hrest : ∀ c ∈ rest.head?, q c = false) :
    (cs ++ rest).takeWhile q = cs ∧ (cs ++ rest).dropWhile q = rest := by
  rw [List.takeWhile_append_of_pos (List.all_eq_true.1 hcs),
    List.dropWhile_append_of_pos (List.all_eq_true.1 hcs)]
  cases rest with
  | nil => simp
  | cons c rest => simp [hrest c rfl]

theorem isIdentChar_of_isIdentStart (h : isIdentStart c = true) : isIdentChar c = true := by
  simp only [isIdentStart, Bool.or_eq_true] at h
  rcases h with h | h <;> simp [isIdentChar, Char.isAlphanum, h]

theorem isIdentChar_of_isDigit (h : c.isDigit = true) : isIdentChar c = true := by
  simp [isIdentChar, Char.isAlphanum, h]

theorem isDigit_eq_false_of_isIdentStart (h : isIdentStart c = true) : c.isDigit = false := by
  simp only [isIdentStart, Char.isAlpha, Char.isUpper, Char.isLower, Bool.or_eq_true,
    Bool.and_eq_true, decide_eq_true_eq, beq_iff_eq] at h
  simp only [Char.isDigit, Bool.and_eq_false_iff, decide_eq_false_iff_not, UInt32.le_iff_toNat_le,
    ge_iff_le] at h ⊢
  rcases h with (⟨h, -⟩ | ⟨h, -⟩) | rfl
  · right; simp at h ⊢; omega
  · right; simp at h ⊢; omega
  · right; decide

theorem ne_of_class {q : Char → Bool} {a : Char} (ha : q a = false) (hc : q c = true) : c ≠ a := by
  rintro rfl
  exact Bool.false_ne_true (ha.symm.trans hc)

theorem isGap_eq_false {q : Char → Bool} (hblank : q ' ' = false) (htab : q '\t' = false)
    (hnewline : q '\n' = false) (hreturn : q '\r' = false) (hc : q c = true) : isGap c = false := by
  simp [isGap, ne_of_class hblank hc, ne_of_class htab hc, ne_of_class hnewline hc,
    ne_of_class hreturn hc]

theorem exists_of_isIdentifier {name : String} (hname : isIdentifier name = true)
    (hrest : ∀ c ∈ rest.head?, isIdentChar c = false) :
    ∃ c cs, name = String.ofList (c :: cs) ∧ isIdentStart c = true ∧
      (cs ++ rest).takeWhile isIdentChar = cs ∧ (cs ++ rest).dropWhile isIdentChar = rest := by
  unfold isIdentifier at hname
  split at hname
  · cases hname
  · rename_i c cs hcs
    obtain ⟨hstart, hall⟩ := Bool.and_eq_true_iff.1 hname
    refine ⟨c, cs, ?_, hstart, takeWhile_append_stop hall hrest⟩
    rw [← hcs, String.ofList_toList]

theorem fronts_variable {name : String} (hname : isIdentifier name = true)
    (hrest : ∀ c ∈ rest.head?, isIdentChar c = false) :
    Fronts (.variable name) ('$' :: (name.toList ++ rest)) rest := by
  obtain ⟨c, cs, rfl, hstart, htake, hdrop⟩ := exists_of_isIdentifier hname hrest
  have hc := isIdentChar_of_isIdentStart hstart
  rw [String.toList_ofList, List.cons_append]
  refine ⟨'$', _, ⟨.variable (String.ofList (c :: cs)), rest, by simp; omega⟩, rfl, rfl, ?_, rfl, rfl⟩
  simp only [readToken, if_true, hstart, List.takeWhile_cons_of_pos hc,
    List.dropWhile_cons_of_pos hc, htake, hdrop]

theorem fronts_ident {name : String} (hname : isIdentifier name = true)
    (hrest : ∀ c ∈ rest.head?, isIdentChar c = false) :
    Fronts (.ident name) (name.toList ++ rest) rest := by
  obtain ⟨c, cs, rfl, hstart, htake, hdrop⟩ := exists_of_isIdentifier hname hrest
  have hdollar : c ≠ '$' := ne_of_class rfl hstart
  have hquote : Quoted.isQuote c = false := isQuote_eq_false rfl rfl hstart
  have hdigit := isDigit_eq_false_of_isIdentStart hstart
  have hminus : c ≠ '-' := ne_of_class rfl hstart
  have hpoint : c ≠ '.' := ne_of_class rfl hstart
  rw [String.toList_ofList, List.cons_append]
  refine ⟨c, cs ++ rest, ⟨.ident (String.ofList (c :: cs)), rest, by simp⟩, rfl,
    isGap_eq_false rfl rfl rfl rfl hstart, ?_, rfl, rfl⟩
  simp [readToken, hdollar, hquote, hdigit, hminus, hpoint, hstart, htake, hdrop]

theorem fronts_text (value : String) (rest : List Char) :
    Fronts (.text value)
      ('\x27' :: Quoted.protect '\x27' value.toList ++ ['\x27'] ++ rest) rest := by
  have hread : Quoted.read? '\x27' (Quoted.protect '\x27' value.toList ++ '\x27' :: rest) =
      some (value.toList, rest) := Quoted.read?_protect (by decide) _ _
  refine ⟨'\x27', Quoted.protect '\x27' value.toList ++ '\x27' :: rest,
    ⟨.text value, rest, by simp; omega⟩, by simp, rfl, ?_, rfl, rfl⟩
  unfold readToken
  rw [if_neg (by decide), if_pos (by decide)]
  split
  · rename_i text rest' h
    rw [hread] at h
    cases h
    simp
  · rename_i h
    rw [hread] at h
    cases h

theorem spanNumber_append {ds rest : List Char} (hds : ds.all Char.isDigit = true)
    (hrest : ∀ c ∈ rest.head?, isIdentChar c = false ∧ c ≠ '.') :
    spanNumber (ds ++ rest) = (ds, rest) := by
  have hall : ds.all isNumberChar = true := by
    rw [List.all_eq_true] at hds ⊢
    intro d hd
    simp [isNumberChar, hds d hd]
  have hstop : ∀ c ∈ rest.head?, isNumberChar c = false := by
    intro c hc
    obtain ⟨hident, hpoint⟩ := hrest c hc
    have hdigit : c.isDigit = false := by
      rw [Bool.eq_false_iff]
      intro h
      exact Bool.false_ne_true (hident.symm.trans (isIdentChar_of_isDigit h))
    simp [isNumberChar, hdigit, hpoint]
  have hexponent : spanExponent rest = ([], rest) := by
    cases rest with
    | nil => rfl
    | cons c rest =>
      have hident := (hrest c rfl).1
      have hsmall : c ≠ 'e' := by
        rintro rfl
        cases hident
      have hlarge : c ≠ 'E' := by
        rintro rfl
        cases hident
      simp [spanExponent, hsmall, hlarge]
  obtain ⟨htake, hdrop⟩ := takeWhile_append_stop hall hstop
  simp [spanNumber, htake, hdrop, hexponent]

theorem fronts_number {spelling : String} (hspelling : isIntegerText spelling = true)
    (hrest : ∀ c ∈ rest.head?, isIdentChar c = false ∧ c ≠ '.') :
    Fronts (.number spelling) (spelling.toList ++ rest) rest := by
  unfold isIntegerText at hspelling
  split at hspelling
  · cases hspelling
  · rename_i c cs hcs
    obtain rfl : spelling = String.ofList (c :: cs) := by rw [← hcs, String.ofList_toList]
    simp only [Bool.and_eq_true, Bool.or_eq_true, beq_iff_eq, Bool.not_eq_true',
      List.isEmpty_eq_false_iff] at hspelling
    obtain ⟨hfirst, hall⟩ := hspelling
    have hspan := spanNumber_append hall hrest
    have hclass : isGap c = false ∧ c ≠ '$' ∧ Quoted.isQuote c = false := by
      rcases hfirst with hdigit | ⟨rfl, -⟩
      · exact ⟨isGap_eq_false rfl rfl rfl rfl hdigit, ne_of_class rfl hdigit,
          isQuote_eq_false rfl rfl hdigit⟩
      · decide
    have hnumber : (c.isDigit || ((c == '-' || c == '.') && (cs ++ rest).head?.any Char.isDigit)) =
        true := by
      rcases hfirst with hdigit | ⟨rfl, hne⟩
      · rw [hdigit, Bool.true_or]
      · obtain ⟨d, ds, rfl⟩ := List.exists_cons_of_ne_nil hne
        rw [List.all_cons, Bool.and_eq_true] at hall
        simp [hall.1]
    rw [String.toList_ofList, List.cons_append]
    refine ⟨c, cs ++ rest, ⟨.number (String.ofList (c :: cs)), rest, by simp⟩, rfl, hclass.1, ?_,
      rfl, rfl⟩
    simp only [readToken, if_neg hclass.2.1, hclass.2.2, hnumber, Bool.false_eq_true, if_false,
      if_true, hspan]

theorem readSymbol?_bang (hrest : ∀ c ∈ rest.head?, c ≠ '=') :
    readSymbol? ('!' :: rest) = some (.bang, rest) := by
  cases rest with
  | nil => rfl
  | cons d ds => simp [readSymbol?, hrest d rfl]

theorem readSymbol?_comparison (op : Comparison) (hrest : ∀ c ∈ rest.head?, c ≠ '=') :
    readSymbol? (op.symbol.toList ++ rest) = some (.comparison op, rest) := by
  cases rest with
  | nil => cases op <;> rfl
  | cons d ds => cases op <;> simp [Comparison.symbol, readSymbol?, hrest d rfl]

def isSymbolStart (c : Char) : Bool :=
  c ∈ ['=', '!', '<', '>', '&', '|', '(', ')', '[', ']', ',']

theorem fronts_symbol {k : TokenKind} {cs : List Char} {c : Char} (hc : isSymbolStart c = true)
    (h : readSymbol? (c :: cs) = some (k, rest)) : Fronts k (c :: cs) rest := by
  have hclass : isGap c = false ∧ c ≠ '$' ∧ Quoted.isQuote c = false ∧ c.isDigit = false ∧
      c ≠ '-' ∧ c ≠ '.' ∧ isIdentStart c = false := by
    simp only [isSymbolStart, List.mem_cons, List.not_mem_nil, or_false, decide_eq_true_eq] at hc
    rcases hc with rfl | rfl | rfl | rfl | rfl | rfl | rfl | rfl | rfl | rfl | rfl <;> decide
  obtain ⟨hgap, hdollar, hquote, hdigit, hminus, hpoint, hstart⟩ := hclass
  refine ⟨c, cs, ⟨k, rest, length_lt_of_readSymbol? h⟩, rfl, hgap, ?_, rfl, rfl⟩
  unfold readToken
  rw [if_neg hdollar, if_neg (by simp [hquote]), if_neg (by simp [hdigit, hminus, hpoint]),
    if_neg (by simp [hstart])]
  split
  · rename_i k' rest' h'
    rw [h] at h'
    cases h'
    rfl
  · rename_i h'
    rw [h] at h'
    cases h'

/-- A token that is written down is read back, when what follows is not taken for more of it. -/
theorem fronts_spelling {k : TokenKind} (hk : k.isSpellable = true)
    (hrest : ∀ c ∈ rest.head?, k.joins c = false) : Fronts k (k.spelling ++ rest) rest := by
  have hequals (h : ∀ c ∈ rest.head?, (c == '=') = false) : ∀ c ∈ rest.head?, c ≠ '=' :=
    fun c hc => by simpa using h c hc
  cases k with
  | «variable» name => exact fronts_variable hk hrest
  | ident name => exact fronts_ident hk hrest
  | text value => exact fronts_text value rest
  | number spelling =>
    exact fronts_number hk fun c hc => by simpa [TokenKind.joins] using hrest c hc
  | bang => exact fronts_symbol rfl (readSymbol?_bang (hequals hrest))
  | comparison op =>
    have hsymbol := readSymbol?_comparison op (hequals hrest)
    cases op <;> exact fronts_symbol rfl hsymbol
  | _ => exact fronts_symbol rfl rfl

/-! ## Reading tokens one after the other -/

/-- The second token may be written right behind the first. -/
def Separate (k l : TokenKind) : Prop :=
  ∀ c ∈ l.spelling.head?, k.joins c = false

/-- The tokens written one after the other: `gap i` stands before the token with the number `i`, and
the last gap behind all of them. -/
def spaced (gap : Nat → List Char) : List TokenKind → List Char
  | [] => gap 0
  | k :: ks => gap 0 ++ (k.spelling ++ spaced (fun i => gap (i + 1)) ks)

theorem TokenKind.joins_gap (k : TokenKind) (hc : isGap c = true) : k.joins c = false := by
  have hident : isIdentChar c = false := by
    rw [Bool.eq_false_iff]
    intro h
    rw [isGap_eq_false rfl rfl rfl rfl h] at hc
    cases hc
  have hpoint : c ≠ '.' := ne_of_class rfl hc
  have hequals : c ≠ '=' := ne_of_class rfl hc
  cases k <;> simp [joins, hident, hpoint, hequals]

theorem TokenKind.spelling_ne_nil {k : TokenKind} (hk : k.isSpellable = true) :
    k.spelling ≠ [] := by
  intro hnil
  have hfronts : Fronts k (k.spelling ++ []) [] := fronts_spelling hk fun c hc => by cases hc
  obtain ⟨c, ds, -, hcs, -⟩ := hfronts
  rw [hnil] at hcs
  cases hcs

/-- Behind a token that may stand before the next comes a blank, the next token, or nothing. -/
theorem joins_spaced {k : TokenKind} {ks : List TokenKind} {gap : Nat → List Char}
    (hgap : ∀ c ∈ gap 0, isGap c = true) (hks : ∀ l ∈ ks.head?, l.isSpellable = true ∧ Separate k l) :
    ∀ c ∈ (spaced gap ks).head?, k.joins c = false := by
  intro c hc
  cases hblanks : gap 0 with
  | cons d blanks =>
    have hd : c = d := by
      cases ks <;> simpa [spaced, hblanks, eq_comm] using hc
    exact k.joins_gap (hd ▸ hgap d (by simp [hblanks]))
  | nil =>
    cases ks with
    | nil => simp [spaced, hblanks] at hc
    | cons l ks =>
      obtain ⟨hl, hseparate⟩ := hks l rfl
      refine hseparate c ?_
      rwa [spaced, hblanks, List.nil_append, List.head?_append_of_ne_nil _ (l.spelling_ne_nil hl)] at hc

theorem tokensFrom_gap {blanks : List Char} (hblanks : ∀ c ∈ blanks, isGap c = true) (offset : Nat)
    (cs : List Char) :
    tokensFrom offset (blanks ++ cs) = tokensFrom (offset + byteLength blanks) cs := by
  induction blanks generalizing offset with
  | nil => rfl
  | cons c blanks ih =>
    obtain ⟨hc, hall⟩ := List.forall_mem_cons.1 hblanks
    rw [List.cons_append, tokensFrom, if_pos hc, ih hall, byteLength_cons, Nat.add_assoc]

theorem tokensFrom_of_fronts {k : TokenKind} {cs : List Char} (h : Fronts k cs rest) (offset : Nat) :
    ∃ stop, tokensFrom offset cs = (tokensFrom stop rest).map (⟨k, offset, stop⟩ :: ·) := by
  obtain ⟨c, ds, token, rfl, hgap, hread, rfl, rfl⟩ := h
  refine ⟨offset + (byteLength (c :: ds) - byteLength token.rest), ?_⟩
  rw [tokensFrom, if_neg (by simp [hgap])]
  simp only [hread]
  cases tokensFrom (offset + (byteLength (c :: ds) - byteLength token.rest)) token.rest <;> rfl

/-- Tokens that are written down are read back, when each may be written right behind the one before
it. -/
theorem exists_tokensFrom_spaced {ks : List TokenKind} {gap : Nat → List Char}
    (hgap : ∀ i, ∀ c ∈ gap i, isGap c = true) (hks : ∀ k ∈ ks, k.isSpellable = true)
    (hseparate : ks.IsChain Separate) (offset : Nat) :
    ∃ ts, tokensFrom offset (spaced gap ks) = .ok ts ∧ kinds ts = ks := by
  induction ks generalizing gap offset with
  | nil =>
    have hend := tokensFrom_gap (hgap 0) offset []
    rw [List.append_nil, tokensFrom] at hend
    exact ⟨[], hend, rfl⟩
  | cons k ks ih =>
    obtain ⟨hk, hall⟩ := List.forall_mem_cons.1 hks
    obtain ⟨hnext, hchain⟩ := List.isChain_cons.1 hseparate
    have hrest : ∀ c ∈ (spaced (fun i => gap (i + 1)) ks).head?, k.joins c = false :=
      joins_spaced (hgap 1) fun l hl => ⟨hall l (List.mem_of_mem_head? hl), hnext l hl⟩
    rw [spaced, tokensFrom_gap (hgap 0)]
    obtain ⟨stop, hstop⟩ := tokensFrom_of_fronts (fronts_spelling hk hrest) (offset + byteLength (gap 0))
    obtain ⟨ts, hts, hkinds⟩ := ih (fun i => hgap (i + 1)) hall hchain stop
    refine ⟨⟨k, offset + byteLength (gap 0), stop⟩ :: ts, ?_, by rw [kinds_cons, hkinds]⟩
    rw [hstop, hts]
    rfl

end Expr

end Templating
