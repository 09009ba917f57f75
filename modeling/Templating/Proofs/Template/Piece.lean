import Templating.Template.Token

/-!
# Pieces of a template

What the scanner finds, as a cut of the characters: plain text, interpolations, directives, and words
with `@` written twice. Every piece keeps the characters it was cut from (`Piece.source`), and the
pieces of a text, joined, are the text (`pieces_source`). Two pieces stand for a mistake and run to
the end: an interpolation without its closing delimiter, which is text, and a directive whose
argument list never closes.

Tokens are what the pieces amount to: neighbouring text is one token, and of an `@` written twice the
first is in no token. `tokensFrom` reads the pieces from the right: besides the tokens it gives the
text at the front, which goes on from whatever stands before it.
-/

namespace Templating

inductive Piece where
  | text (chars : List Char)
  | verbatim (word : List Char)
  | interpolation (escape : Bool) (opening content closing : List Char)
  | directive (kind : Directive) (lexeme : List Char) (args : Option (List Char))
  | unclosedInterpolation (chars : List Char)
  | unclosedArgs (kind : Directive) (lexeme args : List Char)
deriving DecidableEq, Repr

namespace Piece

def source : Piece → List Char
  | .text cs => cs
  | .verbatim word => '@' :: '@' :: word
  | .interpolation _ opening content closing => opening ++ content ++ closing
  | .directive _ lexeme _ => lexeme
  | .unclosedInterpolation cs => cs
  | .unclosedArgs _ lexeme _ => lexeme

def isUnclosed : Piece → Bool
  | .unclosedInterpolation _ | .unclosedArgs .. => true
  | _ => false

abbrev Cut := Piece × List Char

/-- The content of an interpolation, up to its closing delimiter, and what follows the delimiter.
Quoted runs are passed over, and inside them the delimiter is not looked for. -/
def spanContent? (closing : List Char) (cs : List Char) : Option (List Char × List Char) :=
  match cs with
  | [] => none
  | c :: ds =>
    if Text.Quoted.isQuote c then
      match h : Text.Quoted.split? c ds with
      | none => none
      | some (run, rest) =>
        have := Text.Quoted.length_lt_of_split? h
        (spanContent? closing rest).map fun (content, rest) => (c :: run ++ content, rest)
    else if closing.isPrefixOf (c :: ds) then some ([], (c :: ds).drop closing.length)
    else (spanContent? closing ds).map fun (content, rest) => (c :: content, rest)
termination_by cs.length

theorem spanContent?_cons (closing : List Char) (c : Char) (ds : List Char) :
    spanContent? closing (c :: ds) =
      if Text.Quoted.isQuote c then
        (Text.Quoted.split? c ds).bind fun (run, rest) =>
          (spanContent? closing rest).map fun (content, rest) => (c :: run ++ content, rest)
      else if closing.isPrefixOf (c :: ds) then some ([], (c :: ds).drop closing.length)
      else (spanContent? closing ds).map fun (content, rest) => (c :: content, rest) := by
  rw [spanContent?.eq_def]
  simp only
  split
  · split
    · rename_i hsplit
      rw [hsplit]
      rfl
    · rename_i hsplit
      rw [hsplit]
      rfl
  · rfl

/-- The text before the parenthesis that closes `depth` open ones and one more, and what follows
that parenthesis. Quoted runs are passed over. -/
def spanArgs? (depth : Nat) (cs : List Char) : Option (List Char × List Char) :=
  match cs with
  | [] => none
  | c :: ds =>
    if Text.Quoted.isQuote c then
      match h : Text.Quoted.split? c ds with
      | none => none
      | some (run, rest) =>
        have := Text.Quoted.length_lt_of_split? h
        (spanArgs? depth rest).map fun (args, rest) => (c :: run ++ args, rest)
    else if c = '(' then
      (spanArgs? (depth + 1) ds).map fun (args, rest) => (c :: args, rest)
    else if c = ')' then
      match depth with
      | 0 => some ([], ds)
      | depth + 1 => (spanArgs? depth ds).map fun (args, rest) => (c :: args, rest)
    else (spanArgs? depth ds).map fun (args, rest) => (c :: args, rest)
termination_by cs.length

theorem spanArgs?_cons (depth : Nat) (c : Char) (ds : List Char) :
    spanArgs? depth (c :: ds) =
      if Text.Quoted.isQuote c then
        (Text.Quoted.split? c ds).bind fun (run, rest) =>
          (spanArgs? depth rest).map fun (args, rest) => (c :: run ++ args, rest)
      else if c = '(' then (spanArgs? (depth + 1) ds).map fun (args, rest) => (c :: args, rest)
      else if c = ')' then
        match depth with
        | 0 => some ([], ds)
        | depth + 1 => (spanArgs? depth ds).map fun (args, rest) => (c :: args, rest)
      else (spanArgs? depth ds).map fun (args, rest) => (c :: args, rest) := by
  rw [spanArgs?.eq_def]
  simp only
  split
  · split
    · rename_i hsplit
      rw [hsplit]
      rfl
    · rename_i hsplit
      rw [hsplit]
      rfl
  · rfl

/-- An interpolation whose opening delimiter is at the front, and the rest. Without a closing
delimiter all that follows is one piece. -/
def cutInterpolation (escape : Bool) (d : Delimiters) (cs : List Char) : Cut :=
  let body := cs.drop d.opening.length
  match spanContent? d.closing body with
  | some (content, rest) => (.interpolation escape d.opening content d.closing, rest)
  | none => (.unclosedInterpolation cs, [])

/-- A condition without parentheses: the rest of the line after `word`, when it begins with a blank
and is not blank altogether. -/
def cutLine? (kind : Directive) (word cs : List Char) : Option Cut :=
  let line := cs.takeWhile (· != '\n')
  if kind = .openIf ∧ cs.head?.any Text.isInlineBlank ∧ ¬line.all Text.isAsciiBlank then
    some (.directive kind (word ++ line) (some line), cs.dropWhile (· != '\n'))
  else none

def cutArgs? (kind : Directive) (word cs : List Char) : Option Cut :=
  let blanks := cs.takeWhile Text.isInlineBlank
  match cs.dropWhile Text.isInlineBlank with
  | '(' :: inner =>
    match spanArgs? 0 inner with
    | some (args, rest) =>
      some (.directive kind (word ++ blanks ++ '(' :: args ++ [')']) (some args), rest)
    | none => some (.unclosedArgs kind (word ++ blanks ++ '(' :: inner) inner, [])
  | _ => cutLine? kind word cs

theorem cutArgs?_of_paren {cs inner : List Char} (kind : Directive) (word : List Char)
    (h : cs.dropWhile Text.isInlineBlank = '(' :: inner) :
    cutArgs? kind word cs =
      match spanArgs? 0 inner with
      | some (args, rest) =>
        some (.directive kind
          (word ++ cs.takeWhile Text.isInlineBlank ++ '(' :: args ++ [')']) (some args), rest)
      | none =>
        some (.unclosedArgs kind (word ++ cs.takeWhile Text.isInlineBlank ++ '(' :: inner) inner,
          []) := by
  unfold cutArgs?
  simp only [h]

theorem cutArgs?_of_no_paren {cs : List Char} (kind : Directive) (word : List Char)
    (h : ¬∃ inner, cs.dropWhile Text.isInlineBlank = '(' :: inner) :
    cutArgs? kind word cs = cutLine? kind word cs := by
  unfold cutArgs?
  split
  · rename_i inner hinner
    exact absurd ⟨inner, hinner⟩ h
  · rfl

/-- The piece that begins with an `@` followed by `cs`: a second `@` makes a word verbatim, a
directive is one when it has the arguments it takes, and anything else is text up to the end of the
word. -/
def cutAt (cs : List Char) : Cut :=
  match cs with
  | '@' :: ds => (.verbatim (ds.takeWhile isNameChar), ds.dropWhile isNameChar)
  | _ =>
    let name := cs.takeWhile isNameChar
    let rest := cs.dropWhile isNameChar
    match Directive.ofWord? (String.ofList name) with
    | none => (.text ('@' :: name), rest)
    | some kind =>
      if kind.takesArgs then
        (cutArgs? kind ('@' :: name) rest).getD (.text ('@' :: name), rest)
      else (.directive kind ('@' :: name) none, rest)

theorem cutAt_of_head_ne {cs : List Char} (h : cs.head? ≠ some '@') :
    cutAt cs =
      match Directive.ofWord? (String.ofList (cs.takeWhile isNameChar)) with
      | none => (.text ('@' :: cs.takeWhile isNameChar), cs.dropWhile isNameChar)
      | some kind =>
        if kind.takesArgs then
          (cutArgs? kind ('@' :: cs.takeWhile isNameChar) (cs.dropWhile isNameChar)).getD
            (.text ('@' :: cs.takeWhile isNameChar), cs.dropWhile isNameChar)
        else
          (.directive kind ('@' :: cs.takeWhile isNameChar) none, cs.dropWhile isNameChar) := by
  unfold cutAt
  split
  · exact absurd rfl h
  · rfl

def opens (d : Delimiters) (cs : List Char) : Bool :=
  !d.opening.isEmpty && d.opening.isPrefixOf cs

/-- The piece at the front of a text that begins with `c`, and the rest. Where nothing else begins it
is a single character. -/
def cut (m : Markers) (c : Char) (cs : List Char) : Cut :=
  if c = '@' then cutAt cs
  else if opens m.escaped (c :: cs) then cutInterpolation true m.escaped (c :: cs)
  else if opens m.raw (c :: cs) then cutInterpolation false m.raw (c :: cs)
  else (.text [c], cs)

theorem spanContent?_append {closing cs content rest : List Char}
    (h : spanContent? closing cs = some (content, rest)) : content ++ closing ++ rest = cs := by
  fun_induction spanContent? closing cs generalizing content rest with
  | case1 => simp at h
  | case2 => simp at h
  | case3 c ds hq run rest' hs _ ih =>
    obtain ⟨⟨content', rest''⟩, hr, he⟩ := Option.map_eq_some_iff.1 h
    obtain ⟨rfl, rfl⟩ := Prod.mk.inj he
    have := ih hr
    simp only [List.append_assoc] at this
    simp [this, Text.Quoted.split?_append hs]
  | case4 c ds _ hp =>
    obtain ⟨rfl, rfl⟩ := Prod.mk.inj (Option.some.inj h)
    obtain ⟨tail, ht⟩ := List.isPrefixOf_iff_prefix.1 hp
    rw [← ht]
    simp
  | case5 c ds _ _ ih =>
    obtain ⟨⟨content', rest''⟩, hr, he⟩ := Option.map_eq_some_iff.1 h
    obtain ⟨rfl, rfl⟩ := Prod.mk.inj he
    simpa using ih hr

theorem spanArgs?_append {depth : Nat} {cs args rest : List Char}
    (h : spanArgs? depth cs = some (args, rest)) : args ++ ')' :: rest = cs := by
  fun_induction spanArgs? depth cs generalizing args rest with
  | case1 => simp at h
  | case2 => simp at h
  | case3 depth c ds hq run rest' hs _ ih =>
    obtain ⟨⟨args', rest''⟩, hr, he⟩ := Option.map_eq_some_iff.1 h
    obtain ⟨rfl, rfl⟩ := Prod.mk.inj he
    simp [ih hr, Text.Quoted.split?_append hs]
  | case4 depth ds _ ih =>
    obtain ⟨⟨args', rest''⟩, hr, he⟩ := Option.map_eq_some_iff.1 h
    obtain ⟨rfl, rfl⟩ := Prod.mk.inj he
    simp [ih hr]
  | case5 ds =>
    obtain ⟨rfl, rfl⟩ := Prod.mk.inj (Option.some.inj h)
    rfl
  | case6 ds _ _ depth ih =>
    obtain ⟨⟨args', rest''⟩, hr, he⟩ := Option.map_eq_some_iff.1 h
    obtain ⟨rfl, rfl⟩ := Prod.mk.inj he
    simp [ih hr]
  | case7 depth c ds _ _ _ ih =>
    obtain ⟨⟨args', rest''⟩, hr, he⟩ := Option.map_eq_some_iff.1 h
    obtain ⟨rfl, rfl⟩ := Prod.mk.inj he
    simp [ih hr]

/-- A cut of `cs`: the piece holds something, with the rest it makes up `cs`, and behind a mistake
nothing is left. -/
structure IsCut (cs : List Char) (c : Cut) : Prop where
  append : c.1.source ++ c.2 = cs
  nonempty : c.1.source ≠ []
  last : c.1.isUnclosed = true → c.2 = []

theorem IsCut.of_isUnclosed_eq_false {cs : List Char} {c : Cut} (happend : c.1.source ++ c.2 = cs)
    (hne : c.1.source ≠ []) (hopen : c.1.isUnclosed = false) : IsCut cs c :=
  ⟨happend, hne, fun h => absurd (hopen.symm.trans h) Bool.false_ne_true⟩

theorem cutInterpolation_isCut {escape : Bool} {d : Delimiters} {c : Char} {cs : List Char}
    (h : opens d (c :: cs) = true) : IsCut (c :: cs) (cutInterpolation escape d (c :: cs)) := by
  simp only [opens, Bool.and_eq_true, Bool.not_eq_true', List.isEmpty_eq_false_iff] at h
  obtain ⟨hne, hp⟩ := h
  obtain ⟨tail, ht⟩ := List.isPrefixOf_iff_prefix.1 hp
  have hdrop : (c :: cs).drop d.opening.length = tail := by rw [← ht]; simp
  unfold cutInterpolation
  simp only [hdrop]
  split
  · rename_i content rest hs
    refine .of_isUnclosed_eq_false ?_ (by simp [source, hne]) rfl
    have := spanContent?_append hs
    simp only [source, List.append_assoc] at this ⊢
    rw [this, ht]
  · exact ⟨by simp [source], by simp [source], fun _ => rfl⟩

theorem cutArgs?_isCut {kind : Directive} {word cs : List Char} {c : Cut} (hw : word ≠ [])
    (h : cutArgs? kind word cs = some c) : IsCut (word ++ cs) c := by
  have hblank : cs.takeWhile Text.isInlineBlank ++ cs.dropWhile Text.isInlineBlank = cs :=
    List.takeWhile_append_dropWhile
  unfold cutArgs? at h
  split at h
  · rename_i inner hd
    split at h
    · rename_i args rest hs
      obtain rfl := Option.some.inj h
      refine .of_isUnclosed_eq_false ?_ (by simp [source, hw]) rfl
      have := spanArgs?_append hs
      simp only [source, List.append_assoc, List.cons_append, List.nil_append]
      rw [this, ← hd, hblank]
    · obtain rfl := Option.some.inj h
      refine ⟨?_, by simp [source, hw], fun _ => rfl⟩
      simp only [source, List.append_nil, List.append_assoc]
      rw [← hd, hblank]
  · simp only [cutLine?] at h
    split at h
    · obtain rfl := Option.some.inj h
      refine .of_isUnclosed_eq_false ?_ (by simp [source, hw]) rfl
      simp only [source, List.append_assoc]
      rw [List.takeWhile_append_dropWhile]
    · simp at h

theorem cutAt_isCut (cs : List Char) : IsCut ('@' :: cs) (cutAt cs) := by
  have htext : IsCut ('@' :: cs)
      (.text ('@' :: cs.takeWhile isNameChar), cs.dropWhile isNameChar) :=
    .of_isUnclosed_eq_false (by simp [source]) (List.cons_ne_nil _ _) rfl
  unfold cutAt
  split
  · exact .of_isUnclosed_eq_false (by simp [source]) (List.cons_ne_nil _ _) rfl
  · simp only
    split
    · exact htext
    · split
      · rename_i kind _ _
        cases hc : cutArgs? kind ('@' :: cs.takeWhile isNameChar) (cs.dropWhile isNameChar) with
        | none => exact htext
        | some c =>
          have := cutArgs?_isCut (by simp) hc
          simpa using this
      · exact .of_isUnclosed_eq_false (by simp [source]) (List.cons_ne_nil _ _) rfl

theorem cut_isCut (m : Markers) (c : Char) (cs : List Char) : IsCut (c :: cs) (cut m c cs) := by
  unfold cut
  split
  · rename_i hc
    rw [hc]
    exact cutAt_isCut cs
  · split
    · exact cutInterpolation_isCut ‹_›
    · split
      · exact cutInterpolation_isCut ‹_›
      · exact .of_isUnclosed_eq_false rfl (List.cons_ne_nil _ _) rfl

theorem length_cut_lt (m : Markers) (c : Char) (cs : List Char) :
    (cut m c cs).2.length < (c :: cs).length := by
  obtain ⟨happ, hne, -⟩ := cut_isCut m c cs
  have hlen := congrArg List.length happ
  have := List.length_pos_iff.2 hne
  simp only [List.length_append] at hlen
  omega

def pieces (m : Markers) (cs : List Char) : List Piece :=
  match cs with
  | [] => []
  | c :: ds => (cut m c ds).1 :: pieces m (cut m c ds).2
termination_by cs.length
decreasing_by exact length_cut_lt m c ds

@[simp] theorem pieces_nil (m : Markers) : pieces m [] = [] := by
  rw [pieces]

theorem pieces_source (m : Markers) (cs : List Char) : (pieces m cs).flatMap source = cs := by
  fun_induction pieces m cs with
  | case1 => rfl
  | case2 c cs ih => rw [List.flatMap_cons, ih, (cut_isCut m c cs).append]

theorem source_ne_nil {m : Markers} {cs : List Char} {p : Piece} (h : p ∈ pieces m cs) :
    p.source ≠ [] := by
  fun_induction pieces m cs with
  | case1 => cases h
  | case2 c cs ih =>
    rcases List.mem_cons.1 h with rfl | h
    · exact (cut_isCut m c cs).nonempty
    · exact ih h

end Piece

namespace Token

def ofText (start : Nat) (cs : List Char) : List Token :=
  if cs.isEmpty then [] else [⟨start, cs, .text⟩]

/-- The tokens of pieces that begin at `offset`: the text at their front, and the tokens after
it. -/
def tokensFrom (offset : Nat) : List Piece → List Char × List Token
  | [] => ([], [])
  | p :: ps =>
    let after := offset + Text.byteLength p.source
    let (front, tokens) := tokensFrom after ps
    let here (kind : TokenKind) : List Char × List Token :=
      ([], ⟨offset, p.source, kind⟩ :: ofText after front ++ tokens)
    match p with
    | .text cs => (cs ++ front, tokens)
    | .unclosedInterpolation cs => (cs ++ front, tokens)
    | .verbatim word => ([], ofText (offset + 1) ('@' :: word ++ front) ++ tokens)
    | .interpolation escape _ content _ => here (.interpolation escape content)
    | .directive kind _ args => here (.directive kind args)
    | .unclosedArgs kind _ args => here (.directive kind (some args))

def ofPieces (m : Markers) (cs : List Char) : List Token :=
  let (front, ts) := tokensFrom 0 (Piece.pieces m cs)
  ofText 0 front ++ ts

def errorsFrom (offset : Nat) : List Piece → List TokenError
  | [] => []
  | p :: ps =>
    let after := offset + Text.byteLength p.source
    let later := errorsFrom after ps
    match p with
    | .unclosedInterpolation _ => ⟨.unclosedInterpolation, offset, after⟩ :: later
    | .unclosedArgs .. => ⟨.unclosedArgs, offset, after⟩ :: later
    | _ => later

def errorsOfPieces (m : Markers) (cs : List Char) : List TokenError :=
  errorsFrom 0 (Piece.pieces m cs)

end Token

end Templating
