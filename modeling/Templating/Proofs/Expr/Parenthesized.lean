import Mathlib
import Templating.Proofs.Expr.Balance

/-!
# Expressions in parentheses

`Takes cs ks rest` says that the lexer takes tokens of the kinds `ks` off the front of `cs` and leaves
`rest`. It looks at a character beyond a token, but a closing parenthesis never makes a difference
there, so what is read up to one is a text of its own (`Takes.of_before_paren`).

An expression that begins with a parenthesis therefore begins with an expression in parentheses
(`exists_group`).
-/

namespace Templating.Expr

open Text.Quoted

theorem isAsciiBlank_of_isGap {c : Char} (h : isGap c = true) : Text.isAsciiBlank c = true := by
  simp only [isGap, Text.isAsciiBlank, Bool.or_eq_true] at h ⊢
  grind

/-! ## Reading off the front -/

/-- Of `cs` tokens of the kinds `ks` are read, and `rest` is left. -/
inductive Takes : List Char → List TokenKind → List Char → Prop where
  | done (rest : List Char) : Takes rest [] rest
  | gap {c cs ks rest} (hc : isGap c = true) (h : Takes cs ks rest) : Takes (c :: cs) ks rest
  | token {c cs ks rest} {token : Consumed (c :: cs) TokenKind} (hc : isGap c = false)
      (hread : readToken c cs = .ok token) (h : Takes token.rest ks rest) :
      Takes (c :: cs) (token.value :: ks) rest

namespace Takes

variable {cs mid rest : List Char} {ks ls : List TokenKind} {offset : Nat} {ts : List Token}

theorem append (h : Takes cs ks mid) (h' : Takes mid ls rest) : Takes cs (ks ++ ls) rest := by
  induction h with
  | done => exact h'
  | gap hc _ ih => exact .gap hc (ih h')
  | token hc hread _ ih => exact .token hc hread (ih h')

theorem of_append (h : Takes cs (ks ++ ls) rest) : ∃ mid, Takes cs ks mid ∧ Takes mid ls rest := by
  generalize hks : ks ++ ls = all at h
  induction h generalizing ks with
  | done rest =>
    obtain ⟨rfl, rfl⟩ := List.append_eq_nil_iff.1 hks
    exact ⟨rest, .done rest, .done rest⟩
  | gap hc _ ih =>
    obtain ⟨mid, hmid, hrest⟩ := ih hks
    exact ⟨mid, .gap hc hmid, hrest⟩
  | @token c cs all rest token hc hread h ih =>
    cases ks with
    | nil =>
      obtain rfl : ls = token.value :: all := hks
      exact ⟨c :: cs, .done _, .token hc hread h⟩
    | cons k ks =>
      obtain ⟨rfl, hall⟩ := List.cons.inj hks
      obtain ⟨mid, hmid, hrest⟩ := ih hall
      exact ⟨mid, .token hc hread hmid, hrest⟩

theorem exists_front (h : Takes cs ks rest) : ∃ front, cs = front ++ rest := by
  induction h with
  | done => exact ⟨[], rfl⟩
  | @gap c cs ks rest _ _ ih =>
    obtain ⟨front, rfl⟩ := ih
    exact ⟨c :: front, rfl⟩
  | @token c cs ks rest token _ hread _ ih =>
    obtain ⟨front, hfront⟩ := ih
    obtain ⟨before, hbefore, -⟩ := readToken_shape hread
    exact ⟨before ++ front, by rw [hbefore, hfront, List.append_assoc]⟩

theorem exists_tokensFrom (h : Takes cs ks []) (offset : Nat) :
    ∃ ts, tokensFrom offset cs = .ok ts ∧ kinds ts = ks := by
  generalize hrest : ([] : List Char) = rest at h
  induction h generalizing offset with
  | done =>
    subst hrest
    exact ⟨[], by rw [tokensFrom], rfl⟩
  | gap hc _ ih =>
    rw [tokensFrom, if_pos hc]
    exact ih _ hrest
  | @token c cs ks rest token hc hread _ ih =>
    obtain ⟨ts, hts, rfl⟩ :=
      ih (offset + (Text.byteLength (c :: cs) - Text.byteLength token.rest)) hrest
    rw [tokensFrom, if_neg (Bool.eq_false_iff.1 hc)]
    simp only [hread, hts]
    exact ⟨_, rfl, rfl⟩

theorem of_tokensFrom (h : tokensFrom offset cs = .ok ts) : Takes cs (kinds ts) [] := by
  fun_induction tokensFrom offset cs generalizing ts with
  | case1 =>
    cases h
    exact .done []
  | case2 offset c cs hc ih => exact .gap hc (ih h)
  | case3 => cases h
  | case4 => cases h
  | case5 offset c cs hc token hread stop ts' hts =>
    rename_i ih
    cases h
    exact .token (Bool.eq_false_iff.2 hc) hread (ih hts)

end Takes

/-! ## A closing parenthesis ends every token -/

section BeforeParen

variable {c : Char} {cs rest more : List Char}

theorem span_before {q : Char → Bool} (hq : q ')' = false) (cs more : List Char) :
    (cs ++ ')' :: more).takeWhile q = cs.takeWhile q ∧
      (cs ++ ')' :: more).dropWhile q = cs.dropWhile q ++ ')' :: more := by
  induction cs with
  | nil => simp [hq]
  | cons c cs ih => cases hc : q c <;> simp [hc, ih]

theorem any_head?_before {q : Char → Bool} (hq : q ')' = false) (cs more : List Char) :
    (cs ++ ')' :: more).head?.any q = cs.head?.any q := by
  cases cs <;> simp [hq]

theorem spanExponent_before (cs more : List Char) :
    spanExponent (cs ++ ')' :: more) =
      ((spanExponent cs).1, (spanExponent cs).2 ++ ')' :: more) := by
  cases cs with
  | nil => rfl
  | cons c cs =>
    have hsign : Number.spanSign (cs ++ ')' :: more) =
        ((Number.spanSign cs).1, (Number.spanSign cs).2 ++ ')' :: more) := by
      cases cs with
      | nil => rfl
      | cons d ds => by_cases hminus : d = '-' <;> by_cases hplus : d = '+' <;>
          simp [Number.spanSign, hminus, hplus]
    obtain ⟨htake, hdrop⟩ := span_before (q := Char.isDigit) rfl (Number.spanSign cs).2 more
    simp only [List.cons_append, spanExponent, hsign, htake, hdrop,
      any_head?_before (q := Char.isDigit) rfl]
    split <;> rfl

theorem spanNumber_before (cs more : List Char) :
    spanNumber (cs ++ ')' :: more) = ((spanNumber cs).1, (spanNumber cs).2 ++ ')' :: more) := by
  obtain ⟨htake, hdrop⟩ := span_before (q := isNumberChar) rfl cs more
  simp only [spanNumber, htake, hdrop, spanExponent_before]

theorem readSymbol?_some {cs rest : List Char} {k : TokenKind} (h : readSymbol? cs = some (k, rest)) :
    cs = k.spelling ++ rest ∧ ∀ rest', (rest'.head? = some '=' → rest.head? = some '=') →
      readSymbol? (k.spelling ++ rest') = some (k, rest') := by
  unfold readSymbol? at h
  split at h <;> cases h
  case h_3 hne | h_4 hne | h_10 hne | h_11 hne | h_12 hne =>
    refine ⟨rfl, fun rest' hhead => ?_⟩
    cases rest' with
    | nil => rfl
    | cons d ds =>
      have hd : d ≠ '=' := by
        rintro rfl
        obtain ⟨es, rfl⟩ := List.head?_eq_some_iff.1 (hhead rfl)
        exact hne es rfl
      simp [TokenKind.spelling, Comparison.symbol, readSymbol?, hd]
  all_goals exact ⟨rfl, fun _ _ => rfl⟩

theorem readSymbol?_of_before {cs rest more : List Char} {k : TokenKind}
    (h : readSymbol? (cs ++ ')' :: more) = some (k, rest ++ ')' :: more)) :
    readSymbol? cs = some (k, rest) := by
  obtain ⟨happend, hread⟩ := readSymbol?_some h
  rw [← List.append_assoc] at happend
  rw [List.append_cancel_right happend]
  refine hread rest fun hhead => ?_
  obtain ⟨ds, rfl⟩ := List.head?_eq_some_iff.1 hhead
  rfl

theorem readSymbol?_before {k : TokenKind} (h : readSymbol? cs = some (k, rest)) (more : List Char) :
    readSymbol? (cs ++ ')' :: more) = some (k, rest ++ ')' :: more) := by
  obtain ⟨rfl, hread⟩ := readSymbol?_some h
  rw [List.append_assoc]
  refine hread _ fun hhead => ?_
  cases rest with
  | nil => cases hhead
  | cons d ds => exact hhead

theorem read?_cons {quote : Char} (hc : c ≠ '\x5c') (cs : List Char) :
    read? quote (c :: cs) =
      if c = quote then some ([], cs)
      else (read? quote cs).map fun (text, rest) => (c :: text, rest) := by
  cases cs <;> simp [read?, hc]

theorem read?_append {quote : Char} {text : List Char} (h : read? quote cs = some (text, rest))
    (more : List Char) : read? quote (cs ++ more) = some (text, rest ++ more) := by
  fun_induction read? quote cs generalizing text with
  | case1 => cases h
  | case2 => cases h
  | case3 c cs ih =>
    obtain ⟨⟨text', rest'⟩, hread, heq⟩ := Option.map_eq_some_iff.1 h
    cases heq
    rw [List.cons_append, List.cons_append, read?, ih hread]
    rfl
  | case4 cs hlast hmore =>
    cases h
    rw [List.cons_append, read?_cons (ne_backslash hlast hmore), if_pos rfl]
  | case5 c cs hlast hmore hc ih =>
    obtain ⟨⟨text', rest'⟩, hread, heq⟩ := Option.map_eq_some_iff.1 h
    cases heq
    rw [List.cons_append, read?_cons (ne_backslash hlast hmore), if_neg hc, ih hread]
    rfl

theorem read?_of_append {quote : Char} {cs text rest more : List Char}
    (h : read? quote (cs ++ more) = some (text, rest ++ more)) :
    read? quote cs = some (text, rest) := by
  have hshorter {n : Nat} {text : List Char} (hn : n ≤ more.length) {ds : List Char}
      (hds : ds.length = n) : read? quote ds ≠ some (text, rest ++ more) := by
    intro hread
    have hlength := length_lt_of_read? hread
    rw [List.length_append] at hlength
    omega
  fun_induction read? quote cs generalizing text with
  | case1 => exact absurd h (hshorter (Nat.le_refl _) rfl)
  | case2 =>
    cases more with
    | nil => cases h
    | cons d ds =>
      obtain ⟨⟨text', rest'⟩, hread, heq⟩ := Option.map_eq_some_iff.1 h
      cases heq
      exact absurd hread (hshorter (Nat.le_succ _) rfl)
  | case3 c cs ih =>
    rw [List.cons_append, List.cons_append, read?] at h
    obtain ⟨⟨text', rest'⟩, hread, heq⟩ := Option.map_eq_some_iff.1 h
    cases heq
    rw [ih hread]
    rfl
  | case4 cs hlast hmore =>
    rw [List.cons_append, read?_cons (ne_backslash hlast hmore), if_pos rfl] at h
    obtain ⟨rfl, hrest⟩ := Prod.mk.inj (Option.some.inj h)
    rw [List.append_cancel_right hrest]
  | case5 c cs hlast hmore hc ih =>
    rw [List.cons_append, read?_cons (ne_backslash hlast hmore), if_neg hc] at h
    obtain ⟨⟨text', rest'⟩, hread, heq⟩ := Option.map_eq_some_iff.1 h
    cases heq
    rw [ih hread]
    rfl

def readToken? (c : Char) (cs : List Char) : Option (TokenKind × List Char) :=
  (readToken c cs).toOption.map fun token => (token.value, token.rest)

theorem readToken?_eq_some_iff {k : TokenKind} :
    readToken? c cs = some (k, rest) ↔
      ∃ token, readToken c cs = .ok token ∧ token.value = k ∧ token.rest = rest := by
  unfold readToken?
  cases readToken c cs <;> simp [Except.toOption]

theorem readToken?_eq (c : Char) (cs : List Char) :
    readToken? c cs =
      if c = '$' then
        if cs.head?.any isIdentStart then
          some (.variable (String.ofList (cs.takeWhile isIdentChar)), cs.dropWhile isIdentChar)
        else none
      else if isQuote c then
        (read? c cs).map fun (text, rest) => (.text (String.ofList text), rest)
      else if c.isDigit || ((c == '-' || c == '.') && cs.head?.any Char.isDigit) then
        some (.number (String.ofList (c :: (spanNumber cs).1)), (spanNumber cs).2)
      else if isIdentStart c then
        some (.ident (String.ofList (c :: cs.takeWhile isIdentChar)), cs.dropWhile isIdentChar)
      else readSymbol? (c :: cs) := by
  unfold readToken? readToken
  split
  · cases cs with
    | nil => rfl
    | cons d ds => by_cases hd : isIdentStart d = true <;> simp [hd, Except.toOption]
  split
  · split <;> simp_all [Except.toOption]
  split
  · rfl
  split
  · rfl
  · split <;> simp_all [Except.toOption]

theorem readToken?_before_iff {k : TokenKind} :
    readToken? c (cs ++ ')' :: more) = some (k, rest ++ ')' :: more) ↔
      readToken? c cs = some (k, rest) := by
  obtain ⟨htake, hdrop⟩ := span_before (q := isIdentChar) rfl cs more
  rw [readToken?_eq, readToken?_eq, any_head?_before (q := isIdentStart) rfl,
    any_head?_before (q := Char.isDigit) rfl, spanNumber_before, htake, hdrop]
  split
  · split <;> simp
  split
  · simp only [Option.map_eq_some_iff, Prod.exists, Prod.mk.injEq]
    constructor
    · rintro ⟨text, rest, hread, rfl, rfl⟩
      exact ⟨text, _, read?_of_append hread, rfl, rfl⟩
    · rintro ⟨text, rest, hread, rfl, rfl⟩
      exact ⟨text, _, read?_append hread _, rfl, rfl⟩
  split
  · simp
  split
  · simp
  · rw [← List.cons_append]
    exact ⟨readSymbol?_of_before, fun hsymbol => readSymbol?_before hsymbol more⟩

end BeforeParen

/-- A text is an expression when all of it is read as tokens that derive one. -/
theorem parse?_eq_ok_iff_takes {source : String} {e : Expr} :
    parse? source = .ok e ↔ ∃ ks, Takes source.toList ks [] ∧ Derives .or ks e := by
  rw [parse?_eq_ok_iff]
  constructor
  · rintro ⟨ts, hts, h⟩
    exact ⟨kinds ts, .of_tokensFrom hts, h⟩
  · rintro ⟨ks, hks, h⟩
    obtain ⟨ts, hts, rfl⟩ := hks.exists_tokensFrom 0
    exact ⟨ts, hts, h⟩

namespace Takes

variable {c : Char} {cs mid rest more : List Char} {k : TokenKind} {ks ls : List TokenKind}

theorem of_before_paren (h : Takes (cs ++ ')' :: more) ks (')' :: more)) : Takes cs ks [] := by
  generalize hcs : cs ++ ')' :: more = text at h
  generalize hrest : ')' :: more = rest at h
  induction h generalizing cs with
  | done text =>
    subst hrest
    obtain rfl : cs = [] := List.append_left_eq_self.1 hcs
    exact .done []
  | @gap c text ks rest hc h ih =>
    subst hrest
    cases cs with
    | nil =>
      obtain ⟨rfl, -⟩ := List.cons.inj hcs
      cases hc
    | cons d ds =>
      obtain ⟨rfl, htext⟩ := List.cons.inj hcs
      exact .gap hc (ih htext rfl)
  | @token c text ks rest token hc hread h ih =>
    subst hrest
    obtain ⟨front, hfront⟩ := h.exists_front
    cases cs with
    | nil =>
      have hlength := token.shorter
      rw [hfront, ← hcs] at hlength
      simp only [List.nil_append, List.length_append] at hlength
      omega
    | cons d ds =>
      obtain ⟨rfl, htext⟩ := List.cons.inj hcs
      subst htext
      obtain ⟨token', hread', hvalue, hrest'⟩ := readToken?_eq_some_iff.1
        (readToken?_before_iff.1 (readToken?_eq_some_iff.2 ⟨token, hread, rfl, hfront⟩))
      rw [← hvalue]
      refine .token hc hread' (ih ?_ rfl)
      rw [hrest', hfront]

theorem before_paren (h : Takes cs ks rest) (more : List Char) :
    Takes (cs ++ ')' :: more) ks (rest ++ ')' :: more) := by
  induction h with
  | done rest => exact .done _
  | gap hc _ ih => exact .gap hc ih
  | token hc hread _ ih =>
    obtain ⟨token', hread', hvalue, hrest⟩ := readToken?_eq_some_iff.1
      (readToken?_before_iff.2 (readToken?_eq_some_iff.2 ⟨_, hread, rfl, rfl⟩))
    rw [← hvalue]
    refine .token hc hread' ?_
    rwa [hrest]

theorem of_gap (h : Takes (c :: cs) ks []) (hc : isGap c = true) : Takes cs ks [] := by
  cases h with
  | gap _ h => exact h
  | token hc' => exact absurd (hc'.symm.trans hc) Bool.false_ne_true

theorem of_gaps {blanks : List Char} (hblanks : ∀ c ∈ blanks, isGap c = true)
    (h : Takes (blanks ++ cs) ks []) : Takes cs ks [] := by
  induction blanks with
  | nil => exact h
  | cons c blanks ih =>
    obtain ⟨hc, hall⟩ := List.forall_mem_cons.1 hblanks
    exact ih hall (h.of_gap hc)

theorem gaps {blanks : List Char} (hblanks : ∀ c ∈ blanks, isGap c = true) (h : Takes cs ks rest) :
    Takes (blanks ++ cs) ks rest := by
  induction blanks with
  | nil => exact h
  | cons c blanks ih =>
    obtain ⟨hc, hall⟩ := List.forall_mem_cons.1 hblanks
    exact .gap hc (ih hall)

theorem eq_nil_of_blank (h : Takes cs ks rest) (hcs : ∀ c ∈ cs, Text.isAsciiBlank c = true) :
    ks = [] := by
  induction h with
  | done => rfl
  | gap _ _ ih => exact ih (List.forall_mem_cons.1 hcs).2
  | @token c cs ks rest token hc hread =>
    have hblank := (List.forall_mem_cons.1 hcs).1
    simp only [isGap, Text.isAsciiBlank, Bool.or_eq_false_iff, Bool.or_eq_true, beq_eq_false_iff_ne,
      beq_iff_eq] at hc hblank
    obtain rfl : c = '\x0c' := by grind
    cases hread

theorem exists_of_leftParen (h : Takes ('(' :: cs) ks []) :
    ∃ ls, ks = .leftParen :: ls ∧ Takes cs ls [] := by
  cases h with
  | gap hc => cases hc
  | token _ hread h =>
    cases hread
    exact ⟨_, rfl, h⟩

theorem exists_of_rightParen (h : Takes cs (.rightParen :: ks) rest) :
    ∃ blanks after, cs = blanks ++ ')' :: after ∧ (∀ c ∈ blanks, isGap c = true) ∧
      Takes after ks rest := by
  generalize hks : TokenKind.rightParen :: ks = all at h
  induction h with
  | done => cases hks
  | @gap c cs all rest hc _ ih =>
    obtain ⟨blanks, after, rfl, hblanks, hafter⟩ := ih hks
    exact ⟨c :: blanks, after, rfl, List.forall_mem_cons.2 ⟨hc, hblanks⟩, hafter⟩
  | @token c cs all rest token _ hread h =>
    obtain ⟨hvalue, rfl⟩ := List.cons.inj hks
    obtain ⟨front, hfront, hshape⟩ := readToken_shape hread
    rw [← hvalue] at hshape
    cases hshape with
    | rightParen => exact ⟨[], token.rest, hfront, List.forall_mem_nil _, h⟩
    | plain _ hright => exact absurd rfl hright

end Takes

/-- What begins with a parenthesis and is an expression begins with an expression in parentheses, and
is the same one when only blanks follow. -/
theorem exists_group {cs : List Char} {ks : List TokenKind} {e : Expr} (h : Takes ('(' :: cs) ks [])
    (hks : Derives .or ks e) :
    ∃ group rest inner, cs = group ++ ')' :: rest ∧ parse? (String.ofList group) = .ok inner ∧
      ((∀ c ∈ rest, isGap c = true) → inner = e) := by
  obtain ⟨ls, rfl, hls⟩ := h.exists_of_leftParen
  obtain ⟨front, inner, later, rfl, hgroup⟩ := hks.exists_group
  obtain ⟨mid, hmid, hlater⟩ := hls.of_append
  obtain ⟨blanks, rest, rfl, hblanks, hrest⟩ := hlater.exists_of_rightParen
  have hfront : Takes cs front (')' :: rest) := by
    simpa using hmid.append (Takes.gaps hblanks (.done _))
  obtain ⟨group, rfl⟩ := hfront.exists_front
  refine ⟨group, rest, inner, rfl, parse?_eq_ok_iff_takes.2 ⟨front, ?_, hgroup⟩, ?_⟩
  · rw [String.toList_ofList]
    exact hfront.of_before_paren
  · intro hgaps
    obtain rfl : later = [] := hrest.eq_nil_of_blank fun c hc => isAsciiBlank_of_isGap (hgaps c hc)
    have hwhole : Derives .or (.leftParen :: front ++ [.rightParen]) inner :=
      (Derives.positive (.single (.group hgroup))).and_of_not.or_of_and
    exact hwhole.unique hks

theorem parse?_gaps {blanks : List Char} {c : String} {e : Expr}
    (hblanks : ∀ b ∈ blanks, isGap b = true) (h : parse? c = .ok e) :
    parse? (String.ofList (blanks ++ c.toList)) = .ok e := by
  obtain ⟨ks, hks, hderives⟩ := parse?_eq_ok_iff_takes.1 h
  refine parse?_eq_ok_iff_takes.2 ⟨ks, ?_, hderives⟩
  rw [String.toList_ofList]
  exact hks.gaps hblanks

end Templating.Expr
