import Templating.Proofs.Template.Partition
import Templating.Proofs.Template.Splice

/-!
# Nothing is carried over a line end

No word, no condition without parentheses and no delimiter goes over a line end, and what is closed
before it stays closed. So the pieces of a text that ends with one, and in which all is closed, are
followed by those of the text behind it (`pieces_append`), and so are the tokens but for text, which
goes on. To the parser this makes no difference (`Builder.foldl_laid_append`).
-/

namespace Templating

open Text

def EndsLine (cs : List Char) : Prop :=
  cs.getLast? = some '\n'

namespace EndsLine

variable {cs ds : List Char} {c : Char} {q : Char → Bool}

theorem mem (h : EndsLine cs) : '\n' ∈ cs :=
  List.mem_of_getLast? h

theorem of_append (h : EndsLine (cs ++ ds)) (hds : ds ≠ []) : EndsLine ds := by
  rwa [EndsLine, List.getLast?_append_of_ne_nil _ hds] at h

theorem of_cons (h : EndsLine (c :: cs)) (hc : c ≠ '\n') : cs ≠ [] ∧ EndsLine cs := by
  have hne : cs ≠ [] := by
    rintro rfl
    exact hc (Option.some.inj h)
  exact ⟨hne, of_append (show EndsLine ([c] ++ cs) from h) hne⟩

theorem takeWhile_append (h : EndsLine cs) (hq : q '\n' = false) (more : List Char) :
    (cs ++ more).takeWhile q = cs.takeWhile q ∧
      (cs ++ more).dropWhile q = cs.dropWhile q ++ more ∧ EndsLine (cs.dropWhile q) := by
  induction cs with
  | nil => cases h
  | cons c cs ih =>
    cases hc : q c with
    | false => simpa [hc] using h
    | true =>
      have hne : c ≠ '\n' := by
        rintro rfl
        exact Bool.false_ne_true (hq.symm.trans hc)
      obtain ⟨htake, hdrop, hends⟩ := ih (h.of_cons hne).2
      simp [hc, htake, hdrop, hends]

theorem isPrefixOf_append (h : EndsLine cs) {l : List Char} (hl : '\n' ∉ l) (more : List Char) :
    l.isPrefixOf (cs ++ more) = l.isPrefixOf cs := by
  rw [Bool.eq_iff_iff, List.isPrefixOf_iff_prefix, List.isPrefixOf_iff_prefix]
  constructor
  · intro hprefix
    rcases List.prefix_or_prefix_of_prefix hprefix (List.prefix_append cs more) with hl' | hcs
    · exact hl'
    · exact absurd (hcs.subset h.mem) hl
  · intro hprefix
    exact hprefix.trans (List.prefix_append cs more)

end EndsLine

/-- The delimiters hold no line end, and the closing ones are not empty. -/
structure Markers.WithinLine (m : Markers) : Prop where
  opening : ∀ escape, '\n' ∉ (m.delimiters escape).opening
  closing : ∀ escape, '\n' ∉ (m.delimiters escape).closing
  closing_ne_nil : ∀ escape, (m.delimiters escape).closing ≠ []

theorem Markers.withinLine_standard : Markers.standard.WithinLine := by
  constructor <;> intro escape <;> cases escape <;> decide

/-- A quoted run that ends is the same whatever follows the text. -/
theorem Text.Quoted.split?_before {quote : Char} {cs run rest : List Char}
    (h : split? quote cs = some (run, rest)) (more : List Char) :
    split? quote (cs ++ more) = some (run, rest ++ more) := by
  rw [← split?_append h, List.append_assoc]
  exact split?_run_append h _

namespace Piece

theorem spanContent?_before {closing cs content rest : List Char}
    (h : spanContent? closing cs = some (content, rest)) (more : List Char) :
    spanContent? closing (cs ++ more) = some (content, rest ++ more) := by
  fun_induction spanContent? closing cs generalizing content rest with
  | case1 => cases h
  | case2 => cases h
  | case3 c ds hquote run rest' hsplit _ ih =>
    obtain ⟨⟨content', rest''⟩, hr, he⟩ := Option.map_eq_some_iff.1 h
    obtain ⟨rfl, rfl⟩ := Prod.mk.inj he
    rw [List.cons_append, spanContent?_cons, if_pos hquote, Quoted.split?_before hsplit,
      Option.bind_some]
    simp only [ih hr, Option.map_some]
  | case4 c ds hquote hprefix =>
    obtain ⟨rfl, rfl⟩ := Prod.mk.inj (Option.some.inj h)
    obtain ⟨tail, htail⟩ := List.isPrefixOf_iff_prefix.1 hprefix
    have hmore : closing.isPrefixOf (c :: (ds ++ more)) = true := by
      rw [List.isPrefixOf_iff_prefix, ← List.cons_append, ← htail, List.append_assoc]
      exact List.prefix_append _ _
    rw [List.cons_append, spanContent?_cons, if_neg hquote, if_pos hmore, ← List.cons_append, ← htail,
      List.append_assoc, List.drop_left, List.drop_left]
  | case5 c ds hquote hprefix ih =>
    obtain ⟨⟨content', rest''⟩, hr, he⟩ := Option.map_eq_some_iff.1 h
    obtain ⟨rfl, rfl⟩ := Prod.mk.inj he
    have hlength := congrArg List.length (spanContent?_append hr)
    have hmore : ¬closing.isPrefixOf (c :: (ds ++ more)) = true := by
      rw [List.isPrefixOf_iff_prefix] at hprefix ⊢
      intro h'
      refine hprefix (List.prefix_of_prefix_length_le h' (List.prefix_append (c :: ds) more) ?_)
      simp only [List.length_append, List.length_cons] at hlength ⊢
      omega
    rw [List.cons_append, spanContent?_cons, if_neg hquote, if_neg hmore, ih hr]
    rfl

theorem spanArgs?_before {depth : Nat} {cs args rest : List Char}
    (h : spanArgs? depth cs = some (args, rest)) (more : List Char) :
    spanArgs? depth (cs ++ more) = some (args, rest ++ more) := by
  fun_induction spanArgs? depth cs generalizing args rest with
  | case1 => cases h
  | case2 => cases h
  | case3 depth c ds hquote run rest' hsplit _ ih =>
    obtain ⟨⟨args', rest''⟩, hr, he⟩ := Option.map_eq_some_iff.1 h
    obtain ⟨rfl, rfl⟩ := Prod.mk.inj he
    rw [List.cons_append, spanArgs?_cons, if_pos hquote, Quoted.split?_before hsplit,
      Option.bind_some]
    simp only [ih hr, Option.map_some]
  | case4 depth ds hquote ih =>
    obtain ⟨⟨args', rest''⟩, hr, he⟩ := Option.map_eq_some_iff.1 h
    obtain ⟨rfl, rfl⟩ := Prod.mk.inj he
    rw [List.cons_append, spanArgs?_cons, if_neg hquote, if_pos rfl, ih hr]
    rfl
  | case5 ds hquote hopen =>
    obtain ⟨rfl, rfl⟩ := Prod.mk.inj (Option.some.inj h)
    rw [List.cons_append, spanArgs?_cons, if_neg hquote, if_neg hopen, if_pos rfl]
  | case6 ds depth hquote hopen ih =>
    obtain ⟨⟨args', rest''⟩, hr, he⟩ := Option.map_eq_some_iff.1 h
    obtain ⟨rfl, rfl⟩ := Prod.mk.inj he
    rw [List.cons_append, spanArgs?_cons, if_neg hquote, if_neg hopen, if_pos rfl]
    simp only [ih hr]
    rfl
  | case7 depth c ds hquote hopen hclose ih =>
    obtain ⟨⟨args', rest''⟩, hr, he⟩ := Option.map_eq_some_iff.1 h
    obtain ⟨rfl, rfl⟩ := Prod.mk.inj he
    rw [List.cons_append, spanArgs?_cons, if_neg hquote, if_neg hopen, if_neg hclose, ih hr]
    rfl

variable {m : Markers} {c : Char} {cs : List Char}

theorem opens_append {d : Delimiters} (hd : '\n' ∉ d.opening) (h : EndsLine cs) (more : List Char) :
    opens d (cs ++ more) = opens d cs := by
  rw [opens, opens, h.isPrefixOf_append hd]

theorem cutInterpolation_append {escape : Bool} {d : Delimiters} (hopens : opens d cs = true)
    (hclosed : (cutInterpolation escape d cs).1.isUnclosed = false) (more : List Char) :
    cutInterpolation escape d (cs ++ more) =
      ((cutInterpolation escape d cs).1, (cutInterpolation escape d cs).2 ++ more) := by
  simp only [opens, Bool.and_eq_true] at hopens
  obtain ⟨tail, rfl⟩ := List.isPrefixOf_iff_prefix.1 hopens.2
  unfold cutInterpolation at hclosed ⊢
  simp only [List.append_assoc, List.drop_left] at hclosed ⊢
  cases hspan : spanContent? d.closing tail with
  | none => simp [hspan, isUnclosed] at hclosed
  | some found => simp only [spanContent?_before hspan]

theorem cutLine?_append (h : EndsLine cs) (kind : Directive) (word more : List Char) :
    cutLine? kind word (cs ++ more) = (cutLine? kind word cs).map fun c => (c.1, c.2 ++ more) := by
  obtain ⟨htake, hdrop, -⟩ := h.takeWhile_append (q := (· != '\n')) rfl more
  have hne : cs ≠ [] := List.ne_nil_of_mem h.mem
  unfold cutLine?
  simp only [htake, hdrop, List.head?_append_of_ne_nil _ hne]
  split <;> rfl

theorem cutArgs?_append (h : EndsLine cs) (kind : Directive) (word more : List Char)
    (hclosed : ∀ c ∈ cutArgs? kind word cs, c.1.isUnclosed = false) :
    cutArgs? kind word (cs ++ more) = (cutArgs? kind word cs).map fun c => (c.1, c.2 ++ more) := by
  obtain ⟨htake, hdrop, hends⟩ := h.takeWhile_append (q := isInlineBlank) rfl more
  by_cases hparen : ∃ inner, cs.dropWhile isInlineBlank = '(' :: inner
  · obtain ⟨inner, hinner⟩ := hparen
    rw [cutArgs?_of_paren kind word hinner] at hclosed ⊢
    rw [hinner, List.cons_append] at hdrop
    rw [cutArgs?_of_paren kind word hdrop, htake]
    cases hspan : spanArgs? 0 inner with
    | none => simp [hspan, isUnclosed] at hclosed
    | some found => simp only [spanArgs?_before hspan, Option.map_some]
  · have hparen' : ¬∃ inner, (cs ++ more).dropWhile isInlineBlank = '(' :: inner := by
      rintro ⟨inner, hinner⟩
      obtain ⟨d, ds, hds⟩ := List.exists_cons_of_ne_nil (List.ne_nil_of_mem hends.mem)
      rw [hdrop, hds] at hinner
      obtain ⟨rfl, -⟩ := List.cons.inj hinner
      exact hparen ⟨ds, hds⟩
    rw [cutArgs?_of_no_paren kind word hparen, cutArgs?_of_no_paren kind word hparen',
      cutLine?_append h]

theorem cutAt_append (h : EndsLine cs) (hclosed : (cutAt cs).1.isUnclosed = false)
    (more : List Char) : cutAt (cs ++ more) = ((cutAt cs).1, (cutAt cs).2 ++ more) := by
  obtain ⟨htake, hdrop, hends⟩ := h.takeWhile_append (q := isNameChar) rfl more
  have hne : cs ≠ [] := List.ne_nil_of_mem h.mem
  by_cases hhead : cs.head? = some '@'
  · obtain ⟨ds, rfl⟩ := List.head?_eq_some_iff.1 hhead
    obtain ⟨htake, hdrop, -⟩ := (h.of_cons (by decide)).2.takeWhile_append (q := isNameChar) rfl more
    simp only [cutAt, List.cons_append, htake, hdrop]
  · have hhead' : (cs ++ more).head? ≠ some '@' := by
      rwa [List.head?_append_of_ne_nil _ hne]
    rw [cutAt_of_head_ne hhead] at hclosed ⊢
    rw [cutAt_of_head_ne hhead', htake, hdrop]
    cases hkind : Directive.ofWord? (String.ofList (cs.takeWhile isNameChar)) with
    | none => rfl
    | some kind =>
      rw [hkind] at hclosed
      simp only at hclosed ⊢
      split
      · rename_i htakes
        rw [if_pos htakes] at hclosed
        rw [cutArgs?_append hends]
        · cases cutArgs? kind ('@' :: cs.takeWhile isNameChar) (cs.dropWhile isNameChar) <;> rfl
        · intro c hc
          rw [hc] at hclosed
          exact hclosed
      · rfl

/-- What is cut off the front, if it is closed, is the same whatever follows the line. -/
theorem cut_append (hm : m.WithinLine) (h : EndsLine (c :: cs))
    (hclosed : (cut m c cs).1.isUnclosed = false) (more : List Char) :
    cut m c (cs ++ more) = ((cut m c cs).1, (cut m c cs).2 ++ more) := by
  have hescaped : opens m.escaped (c :: (cs ++ more)) = opens m.escaped (c :: cs) :=
    opens_append (hm.opening true) h more
  have hraw : opens m.raw (c :: (cs ++ more)) = opens m.raw (c :: cs) :=
    opens_append (hm.opening false) h more
  unfold cut at hclosed ⊢
  rw [hescaped, hraw]
  by_cases hc : c = '@'
  · subst hc
    simp only [if_true] at hclosed ⊢
    exact cutAt_append (h.of_cons (by decide)).2 hclosed more
  · simp only [if_neg hc] at hclosed ⊢
    by_cases hopens : opens m.escaped (c :: cs) = true
    · simp only [if_pos hopens] at hclosed ⊢
      exact cutInterpolation_append hopens hclosed more
    · simp only [if_neg hopens] at hclosed ⊢
      by_cases hopens' : opens m.raw (c :: cs) = true
      · simp only [if_pos hopens'] at hclosed ⊢
        exact cutInterpolation_append hopens' hclosed more
      · simp only [if_neg hopens']

/-- Behind a line end, with all closed before it, the pieces are those of the text behind it. -/
theorem pieces_append (hm : m.WithinLine) (h : cs = [] ∨ EndsLine cs)
    (hclosed : ∀ p ∈ pieces m cs, p.isUnclosed = false) (more : List Char) :
    pieces m (cs ++ more) = pieces m cs ++ pieces m more := by
  fun_induction pieces m cs with
  | case1 => rfl
  | case2 c cs ih =>
    obtain ⟨hfirst, hall⟩ := List.forall_mem_cons.1 hclosed
    have hends : EndsLine (c :: cs) := h.resolve_left (List.cons_ne_nil _ _)
    have hrest : (cut m c cs).2 = [] ∨ EndsLine (cut m c cs).2 := by
      refine or_iff_not_imp_left.2 fun hne => ?_
      rw [← (cut_isCut m c cs).append] at hends
      exact hends.of_append hne
    rw [List.cons_append, pieces, cut_append hm hends hfirst, List.cons_append, ← ih hrest hall]

theorem newline_not_mem_takeWhile {q : Char → Bool} (hq : q '\n' = false) (cs : List Char) :
    '\n' ∉ cs.takeWhile q := fun hmem =>
  Bool.false_ne_true (hq.symm.trans (List.mem_takeWhile_imp hmem))

theorem not_endsLine_of_cutArgs? {kind : Directive} {word : List Char} {found : Cut}
    (hword : '\n' ∉ word) (hfound : cutArgs? kind word cs = some found)
    (hclosed : found.1.isUnclosed = false) : ¬EndsLine found.1.source := by
  unfold cutArgs? at hfound
  split at hfound
  · split at hfound
    · cases hfound
      intro h
      cases h.of_append (List.cons_ne_nil _ _)
    · cases hfound
      cases hclosed
  · unfold cutLine? at hfound
    simp only at hfound
    split at hfound
    · cases hfound
      intro h
      rcases List.mem_append.1 h.mem with hmem | hmem
      · exact hword hmem
      · exact newline_not_mem_takeWhile rfl cs hmem
    · cases hfound

theorem exists_text_of_cutAt (h : EndsLine (cutAt cs).1.source)
    (hclosed : (cutAt cs).1.isUnclosed = false) : ∃ chars, (cutAt cs).1 = .text chars := by
  have hword : '\n' ∉ '@' :: cs.takeWhile isNameChar := by
    simpa using newline_not_mem_takeWhile (q := isNameChar) rfl cs
  by_cases hhead : cs.head? = some '@'
  · obtain ⟨ds, rfl⟩ := List.head?_eq_some_iff.1 hhead
    have hmem : '\n' ∈ '@' :: '@' :: ds.takeWhile isNameChar := h.mem
    exact absurd (by simpa using hmem) (newline_not_mem_takeWhile (q := isNameChar) rfl ds)
  · rw [cutAt_of_head_ne hhead] at h hclosed ⊢
    cases hkind : Directive.ofWord? (String.ofList (cs.takeWhile isNameChar)) with
    | none => exact ⟨_, rfl⟩
    | some kind =>
      rw [hkind] at h hclosed
      simp only at h hclosed ⊢
      split
      · rename_i htakes
        rw [if_pos htakes] at h hclosed
        cases hargs : cutArgs? kind ('@' :: cs.takeWhile isNameChar) (cs.dropWhile isNameChar) with
        | none => exact ⟨_, rfl⟩
        | some found =>
          rw [hargs] at h hclosed
          exact absurd h (not_endsLine_of_cutArgs? hword hargs hclosed)
      · rename_i htakes
        rw [if_neg htakes] at h
        exact absurd h.mem hword

theorem not_endsLine_of_cutInterpolation (hm : m.WithinLine) (escape : Bool)
    (hclosed : (cutInterpolation escape (m.delimiters escape) cs).1.isUnclosed = false) :
    ¬EndsLine (cutInterpolation escape (m.delimiters escape) cs).1.source := by
  unfold cutInterpolation at hclosed ⊢
  simp only at hclosed ⊢
  split
  · intro h
    exact hm.closing escape (h.of_append (hm.closing_ne_nil escape)).mem
  · rename_i hspan
    simp [hspan, isUnclosed] at hclosed

theorem exists_text_of_cut (hm : m.WithinLine) (h : EndsLine (cut m c cs).1.source)
    (hclosed : (cut m c cs).1.isUnclosed = false) : ∃ chars, (cut m c cs).1 = .text chars := by
  unfold cut at h hclosed ⊢
  split
  · rename_i hc
    rw [if_pos hc] at h hclosed
    exact exists_text_of_cutAt h hclosed
  · rename_i hc
    rw [if_neg hc] at h hclosed
    split
    · rename_i hopens
      rw [if_pos hopens] at h hclosed
      exact absurd h (not_endsLine_of_cutInterpolation hm true hclosed)
    · rename_i hopens
      rw [if_neg hopens] at h hclosed
      split
      · rename_i hopens'
        rw [if_pos hopens'] at h hclosed
        exact absurd h (not_endsLine_of_cutInterpolation hm false hclosed)
      · exact ⟨_, rfl⟩

theorem exists_pieces_eq (hm : m.WithinLine) (h : EndsLine cs)
    (hclosed : ∀ p ∈ pieces m cs, p.isUnclosed = false) :
    ∃ ps chars, pieces m cs = ps ++ [.text chars] ∧ chars ≠ [] := by
  fun_induction pieces m cs with
  | case1 => cases h
  | case2 c cs ih =>
    obtain ⟨hfirst, hall⟩ := List.forall_mem_cons.1 hclosed
    have hcut := cut_isCut m c cs
    by_cases hrest : (cut m c cs).2 = []
    · have hsource : (cut m c cs).1.source = c :: cs := by
        have happend := hcut.append
        rwa [hrest, List.append_nil] at happend
      obtain ⟨chars, hchars⟩ := exists_text_of_cut hm (hsource ▸ h) hfirst
      refine ⟨[], chars, by rw [hrest, pieces_nil, hchars]; rfl, ?_⟩
      have hne := hcut.nonempty
      rwa [hchars] at hne
    · rw [← hcut.append] at h
      obtain ⟨ps, chars, hps, hne⟩ := ih (h.of_append hrest) hall
      exact ⟨(cut m c cs).1 :: ps, chars, by rw [hps]; rfl, hne⟩

end Piece

def TokenError.later (n : Nat) (e : TokenError) : TokenError :=
  { e with start := n + e.start, stop := n + e.stop }

namespace Token

/-- The tokens of pieces that begin at `offset`, those of the text at their front included. -/
def laid (offset : Nat) (ps : List Piece) : List Token :=
  ofText offset (tokensFrom offset ps).1 ++ (tokensFrom offset ps).2

theorem laid_directive (offset : Nat) (kind : Directive) (lexeme : List Char)
    (args : Option (List Char)) (ps : List Piece) :
    laid offset (.directive kind lexeme args :: ps) =
      ⟨offset, lexeme, .directive kind args⟩ :: laid (offset + byteLength lexeme) ps := by
  simp [laid, tokensFrom, ofText, Piece.source]

/-- The tokens of pieces that begin at `offset`, where the text `pending`, which begins at `start`,
stands right before them and goes on with the text at their front. -/
def laidBehind (start : Nat) (pending : List Char) (offset : Nat) (ps : List Piece) : List Token :=
  ofText start (pending ++ (tokensFrom offset ps).1) ++ (tokensFrom offset ps).2

section LaidBehind

variable (start : Nat) (pending : List Char) (offset : Nat) (ps : List Piece)

theorem laidBehind_text {p : Piece} {cs : List Char}
    (hp : p = .text cs ∨ p = .unclosedInterpolation cs) :
    laidBehind start pending offset (p :: ps) =
      laidBehind start (pending ++ cs) (offset + byteLength cs) ps := by
  rcases hp with rfl | rfl <;> simp [laidBehind, tokensFrom, Piece.source]

theorem laidBehind_verbatim (word : List Char) :
    laidBehind start pending offset (.verbatim word :: ps) =
      ofText start pending ++
        laidBehind (offset + 1) ('@' :: word) (offset + byteLength ('@' :: '@' :: word)) ps := by
  simp [laidBehind, tokensFrom, Piece.source]

theorem laidBehind_token {p : Piece} {kind : TokenKind}
    (htokens : tokensFrom offset (p :: ps) =
      ([], ⟨offset, p.source, kind⟩ :: laid (offset + byteLength p.source) ps)) :
    laidBehind start pending offset (p :: ps) =
      ofText start pending ++
        ⟨offset, p.source, kind⟩ :: laid (offset + byteLength p.source) ps := by
  rw [laidBehind, htokens, List.append_nil]

end LaidBehind

def later (n : Nat) (t : Token) : Token :=
  { t with start := n + t.start }

theorem ofText_later (n start : Nat) (cs : List Char) :
    ofText (n + start) cs = (ofText start cs).map (later n) := by
  cases cs <;> rfl

theorem tokensFrom_later (n offset : Nat) (ps : List Piece) :
    tokensFrom (n + offset) ps =
      ((tokensFrom offset ps).1, (tokensFrom offset ps).2.map (later n)) := by
  induction ps generalizing offset with
  | nil => rfl
  | cons p ps ih =>
    have hafter := ih (offset + byteLength p.source)
    rw [← Nat.add_assoc] at hafter
    simp only [tokensFrom, hafter]
    cases p with
    | text | unclosedInterpolation => rfl
    | verbatim word => simp only [Nat.add_assoc, ofText_later, List.map_append]
    | _ =>
      simp only [Nat.add_assoc, ofText_later, List.map_append, List.map_cons]
      rfl

theorem laid_later (n offset : Nat) (ps : List Piece) :
    laid (n + offset) ps = (laid offset ps).map (later n) := by
  rw [laid, laid, tokensFrom_later, ofText_later, List.map_append]

theorem laid_pieces (m : Markers) (cs : List Char) : laid 0 (Piece.pieces m cs) = tokens m cs := by
  rw [tokens_eq_ofPieces]
  rfl

theorem map_later_zero (ts : List Token) : ts.map (later 0) = ts := by
  have hlater : later 0 = id := by
    funext t
    simp [later]
  rw [hlater, List.map_id]

theorem errorsFrom_later (n offset : Nat) (ps : List Piece) :
    errorsFrom (n + offset) ps = (errorsFrom offset ps).map (TokenError.later n) := by
  induction ps generalizing offset with
  | nil => rfl
  | cons p ps ih =>
    have hafter := ih (offset + byteLength p.source)
    cases p <;> simp only [errorsFrom, Nat.add_assoc, hafter, List.map_cons, TokenError.later]

theorem errorsFrom_append (offset : Nat) (ps qs : List Piece) :
    errorsFrom offset (ps ++ qs) =
      errorsFrom offset ps ++ errorsFrom (offset + byteLength (ps.flatMap Piece.source)) qs := by
  induction ps generalizing offset with
  | nil => rfl
  | cons p ps ih =>
    have hafter := ih (offset + byteLength p.source)
    rw [Nat.add_assoc, ← byteLength_append, ← List.flatMap_cons] at hafter
    cases p <;> simp only [List.cons_append, errorsFrom, hafter]

theorem errors_append {m : Markers} {cs : List Char} (hm : m.WithinLine) (h : EndsLine cs)
    (hclosed : ∀ p ∈ Piece.pieces m cs, p.isUnclosed = false) (more : List Char) :
    errors m (cs ++ more) = (errors m more).map (TokenError.later (byteLength cs)) := by
  rw [errors_eq_errorsFrom, errors_eq_errorsFrom, Piece.pieces_append hm (.inr h) hclosed,
    errorsFrom_append, errorsFrom_eq_nil_iff.2 hclosed, Piece.pieces_source, ← errorsFrom_later,
    Nat.zero_add]
  rfl

end Token

namespace Builder

variable {source : Source} {b : Builder}

theorem foldl_ofText_append (start : Nat) (cs ds : List Char) :
    (Token.ofText start (cs ++ ds)).foldl (take source) b =
      (Token.ofText (start + byteLength cs) ds).foldl (take source)
        ((Token.ofText start cs).foldl (take source) b) := by
  cases cs with
  | nil => rfl
  | cons c cs =>
    cases ds with
    | nil => rw [List.append_nil]; rfl
    | cons d ds =>
      let mid := start + byteLength (c :: cs)
      have hstop : start + byteLength (c :: cs ++ d :: ds) = mid + byteLength (d :: ds) := by
        rw [byteLength_append, ← Nat.add_assoc]
      -- where the one ends the other begins, so they join
      have hjoin : Draft.consText (String.ofList (d :: ds))
            (source.location mid (mid + byteLength (d :: ds)))
            (Draft.consText (String.ofList (c :: cs)) (source.location start mid) b.draft.nodes) =
          Draft.consText (String.ofList (c :: cs) ++ String.ofList (d :: ds))
            (source.location start (mid + byteLength (d :: ds))) b.draft.nodes :=
        Draft.consText_consText rfl _
      rw [← String.ofList_append, ← hstop] at hjoin
      have hwhole : (Token.ofText start (c :: cs ++ d :: ds)).foldl (take source) b =
          ⟨b.draft.pushText (c :: cs ++ d :: ds)
            (source.location start (start + byteLength (c :: cs ++ d :: ds))), b.blocks⟩ := rfl
      rw [hwhole, Draft.pushText, ← hjoin, hstop]
      rfl

theorem foldl_laidBehind_append {start offset : Nat} (pending : List Char)
    (hstart : start + byteLength pending = offset) (ps qs : List Piece) :
    (Token.laidBehind start pending offset (ps ++ qs)).foldl (take source) b =
      (Token.laid (offset + byteLength (ps.flatMap Piece.source)) qs).foldl (take source)
        ((Token.laidBehind start pending offset ps).foldl (take source) b) := by
  induction ps generalizing start offset pending b with
  | nil =>
    subst hstart
    simp only [Token.laidBehind, Token.laid, Token.tokensFrom, List.nil_append, List.append_nil,
      List.flatMap_nil, byteLength_nil, Nat.add_zero, List.foldl_append, foldl_ofText_append]
  | cons p ps ih =>
    have hend : offset + byteLength ((p :: ps).flatMap Piece.source) =
        offset + byteLength p.source + byteLength (ps.flatMap Piece.source) := by
      rw [List.flatMap_cons, byteLength_append, Nat.add_assoc]
    have htoken (kind : TokenKind) (htokens : ∀ rs, Token.tokensFrom offset (p :: rs) =
        ([], ⟨offset, p.source, kind⟩ :: Token.laid (offset + byteLength p.source) rs)) :
        (Token.laidBehind start pending offset (p :: (ps ++ qs))).foldl (take source) b =
          (Token.laid (offset + byteLength p.source + byteLength (ps.flatMap Piece.source)) qs).foldl
            (take source) ((Token.laidBehind start pending offset (p :: ps)).foldl (take source) b) := by
      rw [Token.laidBehind_token _ _ _ _ (htokens _), Token.laidBehind_token _ _ _ _ (htokens _),
        List.foldl_append, List.foldl_append]
      exact ih [] (Nat.add_zero (offset + byteLength p.source))
    have hlonger (cs : List Char) :
        start + byteLength (pending ++ cs) = offset + byteLength cs := by
      rw [byteLength_append, ← Nat.add_assoc, hstart]
    rw [List.cons_append, hend]
    cases p with
    | text cs =>
      rw [Token.laidBehind_text _ _ _ _ (.inl rfl), Token.laidBehind_text _ _ _ _ (.inl rfl)]
      exact ih (pending ++ cs) (hlonger cs)
    | unclosedInterpolation cs =>
      rw [Token.laidBehind_text _ _ _ _ (.inr rfl), Token.laidBehind_text _ _ _ _ (.inr rfl)]
      exact ih (pending ++ cs) (hlonger cs)
    | verbatim word =>
      have hstop : offset + 1 + byteLength ('@' :: word) =
          offset + byteLength ('@' :: '@' :: word) := by
        simp only [byteLength_cons, Nat.add_assoc]
        rfl
      rw [Token.laidBehind_verbatim, Token.laidBehind_verbatim, List.foldl_append,
        List.foldl_append]
      exact ih ('@' :: word) hstop
    | interpolation escape opening content closing =>
      exact htoken (.interpolation escape content) fun _ => rfl
    | directive kind lexeme args => exact htoken (.directive kind args) fun _ => rfl
    | unclosedArgs kind lexeme args => exact htoken (.directive kind (some args)) fun _ => rfl

/-- Pieces in a row are read one after the other, although text between them goes on. -/
theorem foldl_laid_append (offset : Nat) (ps qs : List Piece) :
    (Token.laid offset (ps ++ qs)).foldl (take source) b =
      (Token.laid (offset + byteLength (ps.flatMap Piece.source)) qs).foldl (take source)
        ((Token.laid offset ps).foldl (take source) b) :=
  foldl_laidBehind_append [] (Nat.add_zero offset) ps qs

end Builder

end Templating
