import Templating.Proofs.Template.Places

/-!
# The scanner finds the pieces

A scanner between two characters takes in the piece that is cut there: in one step when something
begins there (`takes_step`), and byte by byte when it is a character of text (`run_plain`). So the
tokens it notes are those that the pieces amount to, and their offsets are right (`Lexed.Fits`).
-/

namespace Templating

open Text Place

/-- The offsets of a token, and of what it holds, are those of the token with its characters. -/
inductive Lexed.Fits (m : Markers) : Lexed → Token → Prop where
  | text {start lexeme span} (hspan : span = ⟨start, start + byteLength lexeme⟩) :
      Fits m (.text span) ⟨start, lexeme, .text⟩
  | interpolation {start lexeme escape content chars span}
      (hspan : span = ⟨start, start + byteLength lexeme⟩)
      (hlexeme : lexeme = (m.delimiters escape).opening ++ chars ++ (m.delimiters escape).closing)
      (hcontent : content = ⟨start + byteLength (m.delimiters escape).opening,
        start + byteLength ((m.delimiters escape).opening ++ chars)⟩) :
      Fits m (.interpolation escape content span) ⟨start, lexeme, .interpolation escape chars⟩
  | directive {start lexeme kind span} (hspan : span = ⟨start, start + byteLength lexeme⟩)
      (hlexeme : lexeme = '@' :: kind.word.toList) :
      Fits m (.directive kind none span) ⟨start, lexeme, .directive kind none⟩
  | arguments {start lexeme kind args chars span} (before after : List Char)
      (hspan : span = ⟨start, start + byteLength lexeme⟩)
      (hlexeme : lexeme = '@' :: kind.word.toList ++ before ++ chars ++ after)
      (hargs : args = ⟨start + byteLength ('@' :: kind.word.toList ++ before),
        start + byteLength ('@' :: kind.word.toList ++ before ++ chars)⟩) :
      Fits m (.directive kind (some args) span) ⟨start, lexeme, .directive kind (some chars)⟩

namespace Scanner

/-- What taking in a piece makes of a scanner that stands before it. -/
def Takes (m : Markers) (s : Scanner) (p : Piece) (rest : List Char) (s' : Scanner) : Prop :=
  let after := ofChars (s.index + byteLength p.source) rest
  match p with
  | .text _ => s' = s.moveTo after
  | .verbatim _ =>
    s' = { s with toPlace := after, sectionStart := s.index + 1, tokens := s.flushed }
  | .interpolation escape _ content _ =>
    ∃ l, s' = s.push l after ∧ l.Fits m ⟨s.index, p.source, .interpolation escape content⟩
  | .directive kind _ args =>
    ∃ l, s' = s.push l after ∧ l.Fits m ⟨s.index, p.source, .directive kind args⟩
  | .unclosedInterpolation _ => s' = (s.fail .unclosedInterpolation).moveTo after
  | .unclosedArgs kind _ args =>
    ∃ l, s' = (s.fail .unclosedArgs).push l after ∧
      l.Fits m ⟨s.index, p.source, .directive kind (some args)⟩

variable {m : Markers} {s : Scanner} {index : Nat} {cs : List Char}

theorem opens_ofChars (hs : s.toPlace = ofChars index cs) (d : Delimiters) :
    s.opens d.bytes.opening = Piece.opens d cs := by
  have hrest : s.rest = utf8 cs := congrArg Place.rest hs
  rw [opens, Piece.opens, hrest, Bool.eq_iff_iff]
  simp only [Delimiters.bytes, Bool.and_eq_true, Bool.not_eq_true', List.isEmpty_eq_false_iff,
    List.isPrefixOf_iff_prefix, utf8_prefix_iff]
  refine and_congr_left fun _ => not_congr ?_
  rw [← List.length_eq_zero_iff, length_utf8, byteLength_eq_zero_iff]

theorem takes_interpolation (escape : Bool) (hs : s.toPlace = ofChars index cs)
    (hopens : Piece.opens (m.delimiters escape) cs = true) :
    s.Takes m (Piece.cutInterpolation escape (m.delimiters escape) cs).1
      (Piece.cutInterpolation escape (m.delimiters escape) cs).2
      (s.takeInterpolation escape (m.delimiters escape).bytes) := by
  simp only [Piece.opens, Bool.and_eq_true] at hopens
  obtain ⟨tail, rfl⟩ := List.isPrefixOf_iff_prefix.1 hopens.2
  have hbody : s.forward (utf8 (m.delimiters escape).opening).length =
      ofChars (index + byteLength (m.delimiters escape).opening) tail := by
    rw [hs, length_utf8, forward_ofChars]
  unfold Piece.cutInterpolation takeInterpolation
  simp only [Delimiters.bytes, hbody, findClosing?_ofChars, List.drop_left]
  cases hspan : Piece.spanContent? (m.delimiters escape).closing tail with
  | none =>
    simp only [Option.map_none, Takes, Piece.source]
    rw [hs, finish_ofChars]
    rfl
  | some found =>
    obtain ⟨content, rest⟩ := found
    have hindex : s.index = index := congrArg Place.index hs
    simp only [Option.map_some, length_utf8, forward_behind, behind_index, ofChars_index, Takes,
      Piece.source, hindex, byteLength_append, ← Nat.add_assoc]
    refine ⟨_, rfl, .interpolation ?_ rfl ?_⟩
    · simp only [byteLength_append, ← Nat.add_assoc]
    · simp only [byteLength_append, ← Nat.add_assoc]

/-- The scan of arguments finds those of a piece, and where the piece ends. -/
def ScansArgs (m : Markers) (index : Nat) (kind : Directive) (args : ArgList) (c : Piece.Cut) :
    Prop :=
  args.after = ofChars (index + byteLength c.1.source) c.2 ∧ ∃ chars,
    (c.1 = if args.closed then .directive kind c.1.source (some chars)
      else .unclosedArgs kind c.1.source chars) ∧
    (Lexed.directive kind (some args.span) ⟨index, args.after.index⟩).Fits m
      ⟨index, c.1.source, .directive kind (some chars)⟩

theorem scan?_of_paren (m : Markers) (kind : Directive) (index : Nat) {cs inner : List Char}
    (hinner : cs.dropWhile isInlineBlank = '(' :: inner) :
    Option.Rel (ScansArgs m index kind)
      (ArgList.scan? kind (ofChars (index + byteLength ('@' :: kind.word.toList)) cs))
      (Piece.cutArgs? kind ('@' :: kind.word.toList) cs) := by
  have hopen : isAscii '(' = true := by decide
  have hclose : isAscii ')' = true := by decide
  generalize hword : '@' :: kind.word.toList = word
  rw [Piece.cutArgs?_of_paren kind word hinner]
  unfold ArgList.scan?
  simp only [skip_ofChars isByteClass_isInlineBlank, startsWithChar_ofChars hopen, hinner,
    List.head?_cons, BEq.rfl, if_true, findParen?_opening]
  cases hspan : Piece.spanArgs? 0 inner with
  | none =>
    refine .some ⟨?_, inner, rfl, .arguments (cs.takeWhile isInlineBlank ++ ['(']) [] ?_ ?_ ?_⟩
    · simp only [finish_ofChars, Piece.source, byteLength_append, ← Nat.add_assoc]
    · simp only [finish_ofChars, Piece.source, ofChars_index, byteLength_append, ← Nat.add_assoc]
    · simp [hword, Piece.source]
    · simp only [hword, finish_ofChars, ofChars_index, byteLength_append, byteLength_cons,
        byteLength_nil, utf8Size_of_isAscii hopen, ← Nat.add_assoc, Nat.add_zero]
  | some found =>
    obtain ⟨args, rest⟩ := found
    refine .some ⟨?_, args, rfl, .arguments (cs.takeWhile isInlineBlank ++ ['(']) [')'] ?_ ?_ ?_⟩
    · simp only [forward_one_behind hclose, Piece.source, byteLength_append, byteLength_cons,
        byteLength_nil, utf8Size_of_isAscii hopen, utf8Size_of_isAscii hclose, ← Nat.add_assoc,
        Nat.add_zero]
    · simp only [forward_one_behind hclose, Piece.source, ofChars_index, byteLength_append,
        byteLength_cons, byteLength_nil, utf8Size_of_isAscii hopen, utf8Size_of_isAscii hclose,
        ← Nat.add_assoc, Nat.add_zero]
    · simp [hword, Piece.source]
    · simp only [hword, behind_index, ofChars_index, byteLength_append, byteLength_cons,
        byteLength_nil, utf8Size_of_isAscii hopen, ← Nat.add_assoc, Nat.add_zero]

theorem scan?_of_no_paren (m : Markers) (kind : Directive) (index : Nat) {cs : List Char}
    (hno : ¬∃ inner, cs.dropWhile isInlineBlank = '(' :: inner) :
    Option.Rel (ScansArgs m index kind)
      (ArgList.scan? kind (ofChars (index + byteLength ('@' :: kind.word.toList)) cs))
      (Piece.cutArgs? kind ('@' :: kind.word.toList) cs) := by
  have hopen : isAscii '(' = true := by decide
  have hhead : ((cs.dropWhile isInlineBlank).head? == some '(') = false := by
    rw [Bool.eq_false_iff]
    intro h
    obtain ⟨inner, hinner⟩ := List.head?_eq_some_iff.1 (beq_iff_eq.1 h)
    exact hno ⟨inner, hinner⟩
  generalize hword : '@' :: kind.word.toList = word
  have hblank : index + byteLength word + byteLength (cs.takeWhile isInlineBlank) =
      index + byteLength word ↔ ¬cs.head?.any isInlineBlank = true := by
    rw [Nat.add_eq_left, byteLength_eq_zero_iff]
    cases cs with
    | nil => simp
    | cons c cs => cases hc : isInlineBlank c <;> simp [hc]
  have hall : ((ofChars (index + byteLength word) cs).run (· != '\n')).all (isByte isAsciiBlank) =
      (cs.takeWhile (· != '\n')).all isAsciiBlank := by
    rw [run_ofChars isByteClass_ne_newline, all_run_ofChars isByteClass_isAsciiBlank]
  rw [Piece.cutArgs?_of_no_paren kind word hno]
  unfold ArgList.scan? Piece.cutLine?
  simp only [skip_ofChars isByteClass_isInlineBlank, skip_ofChars isByteClass_ne_newline,
    startsWithChar_ofChars hopen, hhead, ofChars_index, hblank, hall]
  by_cases hline : kind = .openIf ∧ cs.head?.any isInlineBlank = true ∧
      ¬(cs.takeWhile (· != '\n')).all isAsciiBlank = true
  · obtain ⟨rfl, hany, hsome⟩ := hline
    rw [if_neg Bool.false_ne_true, if_neg (by simp [hany]), if_neg hsome, if_pos ⟨rfl, hany, hsome⟩]
    refine .some ⟨?_, cs.takeWhile (· != '\n'), rfl, .arguments [] [] ?_ ?_ ?_⟩
    · simp only [Piece.source, byteLength_append, ← Nat.add_assoc]
    · simp only [Piece.source, ofChars_index, byteLength_append,
        ← Nat.add_assoc]
    · simp [hword, Piece.source]
    · simp only [hword, byteLength_append, byteLength_nil, ← Nat.add_assoc, Nat.add_zero]
  · rw [if_neg Bool.false_ne_true, if_neg hline]
    split
    · exact .none
    · rename_i hkind
      split
      · exact .none
      · rename_i hsome
        simp only [ne_eq, not_or, Decidable.not_not] at hkind
        exact absurd ⟨hkind.1, hkind.2, hsome⟩ hline

theorem scan?_ofChars (m : Markers) (kind : Directive) (index : Nat) (cs : List Char) :
    Option.Rel (ScansArgs m index kind)
      (ArgList.scan? kind (ofChars (index + byteLength ('@' :: kind.word.toList)) cs))
      (Piece.cutArgs? kind ('@' :: kind.word.toList) cs) := by
  by_cases h : ∃ inner, cs.dropWhile isInlineBlank = '(' :: inner
  · obtain ⟨inner, hinner⟩ := h
    exact scan?_of_paren m kind index hinner
  · exact scan?_of_no_paren m kind index h

theorem takes_of_scansArgs {kind : Directive} {args : ArgList} {c : Piece.Cut}
    (h : ScansArgs m s.index kind args c) :
    s.Takes m c.1 c.2
      ((if args.closed then s else s.fail .unclosedArgs).push
        (.directive kind (some args.span) ⟨s.index, args.after.index⟩) args.after) := by
  obtain ⟨piece, rest⟩ := c
  obtain ⟨hafter, chars, hpiece, hfits⟩ := h
  simp only at hafter hpiece hfits
  generalize piece.source = lexeme at hafter hpiece hfits
  rw [hafter] at hfits
  simp only [hafter]
  cases hclosed : args.closed with
  | true =>
    rw [hclosed, if_pos rfl] at hpiece
    subst hpiece
    exact ⟨_, rfl, hfits⟩
  | false =>
    rw [hclosed, if_neg Bool.false_ne_true] at hpiece
    subst hpiece
    exact ⟨_, rfl, hfits⟩

theorem takes_at (hs : s.toPlace = ofChars index ('@' :: cs)) :
    s.Takes m (Piece.cutAt cs).1 (Piece.cutAt cs).2 s.takeAt := by
  have hat : isAscii '@' = true := by decide
  obtain rfl : s.index = index := congrArg Place.index hs
  have hname : s.forward 1 = ofChars (s.index + 1) cs :=
    (congrArg (·.forward 1) hs).trans (forward_one_ofChars hat _ _)
  unfold takeAt
  simp only [hname, startsWithChar_ofChars hat]
  by_cases hhead : cs.head? = some '@'
  · obtain ⟨ds, rfl⟩ := List.head?_eq_some_iff.1 hhead
    simp only [Piece.cutAt, Takes, Piece.source, forward_one_ofChars hat, List.head?_cons, BEq.rfl,
      skip_ofChars isByteClass_isNameChar, if_true]
    simp only [ofChars_index, byteLength_cons, utf8Size_of_isAscii hat, ← Nat.add_assoc]
  · have hascii : ∀ c ∈ cs.takeWhile isNameChar, isAscii c = true := fun c hc =>
      isAscii_of_isNameChar c (List.all_eq_true.1 List.all_takeWhile c hc)
    have hstop : s.index + 1 + byteLength (cs.takeWhile isNameChar) =
        s.index + byteLength ('@' :: cs.takeWhile isNameChar) := by
      rw [byteLength_cons, utf8Size_of_isAscii hat, Nat.add_assoc]
    rw [if_neg (by simpa using hhead), Piece.cutAt_of_head_ne hhead,
      run_ofChars isByteClass_isNameChar, map_ofUInt8_utf8 hascii,
      skip_ofChars isByteClass_isNameChar, hstop]
    cases hkind : Directive.ofWord? (String.ofList (cs.takeWhile isNameChar)) with
    | none => rfl
    | some kind =>
      have hword : kind.word.toList = cs.takeWhile isNameChar := by
        rw [Directive.word_of_ofWord? hkind, String.toList_ofList]
      rw [← hword]
      simp only
      cases htakes : kind.takesArgs with
      | false => exact ⟨_, rfl, .directive rfl rfl⟩
      | true =>
        simp only [if_true]
        have hrel := scan?_ofChars m kind s.index (cs.dropWhile isNameChar)
        revert hrel
        generalize ArgList.scan? kind (ofChars (s.index + byteLength ('@' :: kind.word.toList))
          (cs.dropWhile isNameChar)) = scanned
        generalize Piece.cutArgs? kind ('@' :: kind.word.toList) (cs.dropWhile isNameChar) = found
        intro hrel
        cases hrel with
        | none => rfl
        | some h => exact takes_of_scansArgs h

theorem startsWithChar_cons {c : Char} (hs : s.toPlace = ofChars index (c :: cs)) :
    s.startsWithChar '@' = true ↔ c = '@' := by
  rw [hs, startsWithChar_ofChars (by decide), List.head?_cons, Option.some_beq_some, beq_iff_eq]

theorem takes_step {c : Char} (hs : s.toPlace = ofChars index (c :: cs))
    (hbegins : c = '@' ∨ Piece.opens m.escaped (c :: cs) = true ∨
      Piece.opens m.raw (c :: cs) = true) :
    s.Takes m (Piece.cut m c cs).1 (Piece.cut m c cs).2 (s.step m.raw.bytes m.escaped.bytes) := by
  unfold step Piece.cut
  simp only [startsWithChar_cons hs, opens_ofChars hs]
  by_cases hc : c = '@'
  · subst hc
    simp only [if_true]
    exact takes_at hs
  · by_cases hescaped : Piece.opens m.escaped (c :: cs) = true
    · simp only [if_neg hc, if_pos hescaped]
      exact takes_interpolation true hs hescaped
    · have hraw : Piece.opens m.raw (c :: cs) = true := by
        rcases hbegins with h | h | h
        · exact absurd h hc
        · exact absurd h hescaped
        · exact h
      simp only [if_neg hc, if_neg hescaped, if_pos hraw]
      exact takes_interpolation false hs hraw

theorem run_of_pos {raw escaped : DelimiterBytes} (h : 0 < s.rest.length) :
    s.run raw escaped = (s.step raw escaped).run raw escaped := by
  rw [run, dif_pos h]

theorem opens_eq_false {x : UInt8} {bs : List UInt8} (hx : ¬x.IsUTF8FirstByte)
    (hs : s.rest = x :: bs) (d : Delimiters) : s.opens d.bytes.opening = false := by
  rw [opens, Delimiters.bytes, hs]
  by_cases hopening : d.opening = []
  · rw [hopening]
    rfl
  · rw [isPrefixOf_utf8_eq_false hopening hx, Bool.and_false]

theorem step_of_not_isUTF8FirstByte {x : UInt8} {bs : List UInt8} (hx : ¬x.IsUTF8FirstByte)
    (hs : s.rest = x :: bs) (d e : Delimiters) :
    s.step d.bytes e.bytes = s.moveTo (s.forward 1) := by
  have hat : ¬s.startsWithChar '@' = true := by
    rw [startsWithChar, hs, List.head?_cons, Option.some_beq_some, beq_iff_eq]
    exact ne_of_not_isUTF8FirstByte (by decide) hx
  rw [step, if_neg hat, opens_eq_false hx hs, opens_eq_false hx hs]
  rfl

theorem moveTo_self {p : Place} (hs : s.toPlace = p) : s.moveTo p = s := by
  rw [← hs]
  rfl

theorem run_append (d e : Delimiters) {l : List UInt8} (hl : ∀ x ∈ l, ¬x.IsUTF8FirstByte)
    (bs : List UInt8) (hs : s.toPlace = ⟨index, l ++ bs⟩) :
    s.run d.bytes e.bytes = (s.moveTo ⟨index + l.length, bs⟩).run d.bytes e.bytes := by
  induction l generalizing s index with
  | nil => exact congrArg (Scanner.run d.bytes e.bytes) (moveTo_self hs).symm
  | cons x l ih =>
    obtain ⟨hx, hall⟩ := List.forall_mem_cons.1 hl
    have hrest : s.rest = x :: (l ++ bs) := congrArg Place.rest hs
    have hnext : (s.moveTo (s.forward 1)).toPlace = ⟨index + 1, l ++ bs⟩ :=
      congrArg (·.forward 1) hs
    have hlength : index + (x :: l).length = index + 1 + l.length := by
      rw [List.length_cons, Nat.add_assoc, Nat.add_comm 1]
    rw [run_of_pos (hrest ▸ Nat.succ_pos _), step_of_not_isUTF8FirstByte hx hrest, ih hall hnext,
      hlength]
    rfl

theorem run_plain {d e : Delimiters} {c : Char} (hs : s.toPlace = ofChars index (c :: cs))
    (hat : c ≠ '@') (hescaped : Piece.opens e (c :: cs) = false)
    (hraw : Piece.opens d (c :: cs) = false) :
    s.run d.bytes e.bytes =
      (s.moveTo (ofChars (index + c.utf8Size) cs)).run d.bytes e.bytes := by
  obtain ⟨b, tail, hbytes, -, htail⟩ := utf8EncodeChar_eq_cons c
  have hrest : s.rest = b :: (tail ++ utf8 cs) := by
    rw [congrArg Place.rest hs, ofChars, utf8_cons, hbytes, List.cons_append]
  have hstep : s.step d.bytes e.bytes = s.moveTo (s.forward 1) := by
    rw [step, if_neg (mt (startsWithChar_cons hs).1 hat), opens_ofChars hs, opens_ofChars hs,
      hescaped, hraw]
    rfl
  have hnext : (s.moveTo (s.forward 1)).toPlace = ⟨index + 1, tail ++ utf8 cs⟩ := by
    rw [moveTo, forward, hrest, congrArg Place.index hs]
    rfl
  have hsize : index + 1 + tail.length = index + c.utf8Size := by
    rw [← String.length_utf8EncodeChar, hbytes, List.length_cons, Nat.add_assoc, Nat.add_comm 1]
  rw [run_of_pos (hrest ▸ Nat.succ_pos _), hstep, run_append d e htail (utf8 cs) hnext, hsize]
  rfl

/-- Up to the next piece the scanner takes in what is cut where it stands. -/
theorem run_takes {c : Char} (hs : s.toPlace = ofChars index (c :: cs)) :
    ∃ s' : Scanner, s.Takes m (Piece.cut m c cs).1 (Piece.cut m c cs).2 s' ∧
      s.run m.raw.bytes m.escaped.bytes = s'.run m.raw.bytes m.escaped.bytes := by
  by_cases hbegins : c = '@' ∨ Piece.opens m.escaped (c :: cs) = true ∨
      Piece.opens m.raw (c :: cs) = true
  · refine ⟨_, takes_step hs hbegins, run_of_pos ?_⟩
    rw [congrArg Place.rest hs, ofChars, length_utf8]
    exact Nat.lt_of_lt_of_le c.utf8Size_pos (Nat.le_add_right _ _)
  · obtain ⟨hat, hescaped, hraw⟩ : c ≠ '@' ∧ Piece.opens m.escaped (c :: cs) = false ∧
        Piece.opens m.raw (c :: cs) = false := by
      simpa only [not_or, Bool.not_eq_true] using hbegins
    have hcut : Piece.cut m c cs = (.text [c], cs) := by
      simp [Piece.cut, hat, hescaped, hraw]
    rw [hcut]
    refine ⟨_, rfl, ?_⟩
    rw [run_plain hs hat hescaped hraw, congrArg Place.index hs]
    rfl

theorem Takes.toPlace {p : Piece} {rest : List Char} {s' : Scanner} (h : s.Takes m p rest s') :
    s'.toPlace = ofChars (s.index + byteLength p.source) rest := by
  cases p with
  | text chars => exact congrArg Scanner.toPlace h
  | verbatim word => exact congrArg Scanner.toPlace h
  | interpolation escape opening content closing =>
    obtain ⟨l, rfl, -⟩ := h
    rfl
  | directive kind lexeme args =>
    obtain ⟨l, rfl, -⟩ := h
    rfl
  | unclosedInterpolation chars => exact congrArg Scanner.toPlace h
  | unclosedArgs kind lexeme args =>
    obtain ⟨l, rfl, -⟩ := h
    rfl

/-- A scan from `s`, where the text `front` is pending, finds the pieces `ps` and ends in `final`. -/
structure Finds (m : Markers) (s : Scanner) (front : List Char) (ps : List Piece)
    (final : Scanner) : Prop where
  tokens : ∃ ls, final.flushed = ls.reverse ++ s.tokens ∧
    List.Forall₂ (Lexed.Fits m) ls
      (Token.ofText s.sectionStart (front ++ (Token.tokensFrom s.index ps).1) ++
        (Token.tokensFrom s.index ps).2)
  errors : final.errors = (Token.errorsFrom s.index ps).reverse ++ s.errors

theorem flushed_fits (m : Markers) {front : List Char}
    (hfront : s.sectionStart + byteLength front = s.index) :
    ∃ ls, s.flushed = ls.reverse ++ s.tokens ∧
      List.Forall₂ (Lexed.Fits m) ls (Token.ofText s.sectionStart front) := by
  rw [flushed, ← hfront]
  cases front with
  | nil => exact ⟨[], if_neg (Nat.lt_irrefl _), .nil⟩
  | cons c front =>
    refine ⟨[.text ⟨s.sectionStart, s.sectionStart + byteLength (c :: front)⟩], if_pos ?_, ?_⟩
    · exact Token.start_lt_stop (t := ⟨_, _, .text⟩) (List.cons_ne_nil c front)
    · exact .cons (.text rfl) .nil

theorem Finds.exists_of_push {l : Lexed} {lexeme front : List Char} {kind : TokenKind}
    {ps : List Piece} {after : Place} {final : Scanner}
    (hfront : s.sectionStart + byteLength front = s.index)
    (hfits : l.Fits m ⟨s.index, lexeme, kind⟩) (h : (s.push l after).Finds m [] ps final) :
    ∃ ls, final.flushed = ls.reverse ++ s.tokens ∧
      List.Forall₂ (Lexed.Fits m) ls
        (Token.ofText s.sectionStart (front ++ []) ++
          (⟨s.index, lexeme, kind⟩ ::
            Token.ofText after.index (Token.tokensFrom after.index ps).1 ++
              (Token.tokensFrom after.index ps).2)) := by
  obtain ⟨before, hbefore, hall⟩ := s.flushed_fits m hfront
  obtain ⟨later, hlater, hrest⟩ := h.tokens
  refine ⟨before ++ l :: later, ?_, ?_⟩
  · rw [hlater, List.reverse_append, List.reverse_cons, List.append_assoc, List.append_assoc]
    exact congrArg (fun ts => later.reverse ++ l :: ts) hbefore
  · rw [List.append_nil]
    exact List.rel_append hall (.cons hfits hrest)

/-- When what is left is found from behind a piece, all is found from before it. -/
theorem Takes.finds {p : Piece} {ps : List Piece} {front rest : List Char} {s' final : Scanner}
    (h : s.Takes m p rest s') (hfront : s.sectionStart + byteLength front = s.index)
    (hlast : p.isUnclosed = true → s.finish.index = s.index + byteLength p.source)
    (hfound : ∀ front', s'.sectionStart + byteLength front' = s'.index →
      s'.Finds m front' ps final) : s.Finds m front (p :: ps) final := by
  cases p with
  | text chars =>
    subst h
    obtain ⟨htokens, herrors⟩ := hfound (front ++ chars) (by
      rw [byteLength_append, ← Nat.add_assoc]
      exact congrArg (· + byteLength chars) hfront)
    rw [List.append_assoc] at htokens
    exact ⟨htokens, herrors⟩
  | verbatim word =>
    subst h
    obtain ⟨⟨later, hlater, hrest⟩, herrors⟩ := hfound ('@' :: word) (by
      simp only [Piece.source, byteLength_cons, ofChars_index, Nat.add_assoc]
      rfl)
    obtain ⟨before, hbefore, hall⟩ := s.flushed_fits m hfront
    refine ⟨⟨before ++ later, ?_, ?_⟩, herrors⟩
    · rw [hlater, List.reverse_append, List.append_assoc]
      exact congrArg (later.reverse ++ ·) hbefore
    · have hfront : front ++ (Token.tokensFrom s.index (.verbatim word :: ps)).1 = front :=
        List.append_nil front
      rw [hfront]
      exact List.rel_append hall hrest
  | interpolation escape opening content closing =>
    obtain ⟨l, rfl, hfits⟩ := h
    have hrest := hfound [] rfl
    exact ⟨hrest.exists_of_push hfront hfits, hrest.errors⟩
  | directive kind lexeme args =>
    obtain ⟨l, rfl, hfits⟩ := h
    have hrest := hfound [] rfl
    exact ⟨hrest.exists_of_push hfront hfits, hrest.errors⟩
  | unclosedInterpolation chars =>
    subst h
    obtain ⟨htokens, herrors⟩ := hfound (front ++ chars) (by
      rw [byteLength_append, ← Nat.add_assoc]
      exact congrArg (· + byteLength chars) hfront)
    rw [List.append_assoc] at htokens
    refine ⟨htokens, ?_⟩
    rw [herrors, Token.errorsFrom, List.reverse_cons, List.append_assoc, ← hlast rfl]
    rfl
  | unclosedArgs kind lexeme args =>
    obtain ⟨l, rfl, hfits⟩ := h
    have hrest := hfound [] rfl
    refine ⟨hrest.exists_of_push (s := s.fail .unclosedArgs) hfront hfits, ?_⟩
    rw [hrest.errors, Token.errorsFrom, List.reverse_cons, List.append_assoc, ← hlast rfl]
    rfl

theorem run_finds {front : List Char} (hs : s.toPlace = ofChars index cs)
    (hfront : s.sectionStart + byteLength front = s.index) :
    s.Finds m front (Piece.pieces m cs) (s.run m.raw.bytes m.escaped.bytes) := by
  fun_induction Piece.pieces m cs generalizing s index front with
  | case1 =>
    have hend : s.run m.raw.bytes m.escaped.bytes = s := by
      rw [run, dif_neg]
      rw [congrArg Place.rest hs]
      exact Nat.lt_irrefl 0
    rw [hend]
    refine ⟨?_, rfl⟩
    rw [Token.tokensFrom, List.append_nil, List.append_nil]
    exact s.flushed_fits m hfront
  | case2 c cs ih =>
    obtain ⟨s', htakes, hrun⟩ := run_takes (m := m) hs
    rw [hrun]
    refine htakes.finds hfront ?_ fun _ hfront' => ih htakes.toPlace hfront'
    intro hopen
    have hcut := Piece.cut_isCut m c cs
    have hsource := hcut.append
    rw [hcut.last hopen, List.append_nil] at hsource
    rw [hsource, hs, finish_ofChars]
    rfl

end Scanner

variable (m : Markers) (cs : List Char)

theorem start_finds : (Scanner.start cs).Finds m [] (Piece.pieces m cs)
    ((Scanner.start cs).run m.raw.bytes m.escaped.bytes) :=
  Scanner.run_finds rfl rfl

/-- The tokens that are noted are those of the pieces. -/
theorem scan_fits : List.Forall₂ (Lexed.Fits m) (scan m cs).tokens (Token.ofPieces m cs) := by
  obtain ⟨ls, hls, hall⟩ := (start_finds m cs).tokens
  have htokens : (scan m cs).tokens = ls := by
    rw [scan, hls, List.reverse_append, List.reverse_reverse]
    rfl
  rw [htokens]
  exact hall

theorem errors_scan : (scan m cs).errors = Token.errorsOfPieces m cs := by
  rw [scan, (start_finds m cs).errors, List.reverse_append, List.reverse_reverse]
  rfl

end Templating
