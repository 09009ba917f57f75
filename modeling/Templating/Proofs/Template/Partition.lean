import Templating.Proofs.Template.Scan

/-!
# The tokens of a template lie over all of it

`Covers offset cs ts` lays tokens over a text that begins at `offset`, one after the other. What they
leave out is the first of two `@`, and behind it stands a text token. The pieces of a template are
covered by the tokens they amount to (`covers_tokensFrom`), so what the scanner notes lies over the
template in the same way, and the offsets it notes are those of characters (`Span.Holds`).
-/

namespace Templating

open Text

def Text.StandsAt (offset : Nat) (cs chars : List Char) (i : Nat) : Prop :=
  ∃ before after, cs = before ++ chars ++ after ∧ i = offset + byteLength before

namespace Text.StandsAt

variable {offset i : Nat} {cs chars : List Char}

theorem append (front : List Char) (h : StandsAt (offset + byteLength front) cs chars i) :
    StandsAt offset (front ++ cs) chars i := by
  obtain ⟨before, after, rfl, rfl⟩ := h
  refine ⟨front ++ before, after, by simp only [List.append_assoc], ?_⟩
  rw [byteLength_append, Nat.add_assoc]

theorem part {front back : List Char} (h : StandsAt offset cs (front ++ chars ++ back) i) :
    StandsAt offset cs chars (i + byteLength front) := by
  obtain ⟨before, after, rfl, rfl⟩ := h
  refine ⟨before ++ front, back ++ after, by simp only [List.append_assoc], ?_⟩
  rw [byteLength_append, Nat.add_assoc]

end Text.StandsAt

structure Span.Holds (span : Span) (cs chars : List Char) : Prop where
  start : StandsAt 0 cs chars span.start
  stop : span.stop = span.start + byteLength chars

theorem Span.Holds.slice_eq {span : Span} {cs chars : List Char} (h : span.Holds cs chars) :
    span.slice cs = chars := by
  obtain ⟨⟨before, after, rfl, hstart⟩, hstop⟩ := h
  rw [Span.slice, hstop, hstart, Nat.zero_add]
  exact slice_append before chars after

theorem Text.StandsAt.holds_part {i : Nat} {cs front chars back : List Char}
    (h : StandsAt 0 cs (front ++ chars ++ back) i) :
    Span.Holds ⟨i + byteLength front, i + byteLength (front ++ chars)⟩ cs chars :=
  ⟨h.part, by rw [byteLength_append, Nat.add_assoc]⟩

/-- The offsets of a token are those of the characters it was read from, and the offsets of what it
holds are those of a part of them. -/
def Lexed.Shaped (m : Markers) (cs : List Char) : Lexed → Prop
  | .text span => ∃ chars, span.Holds cs chars
  | .interpolation escape content span =>
    ∃ chars, span.Holds cs
        ((m.delimiters escape).opening ++ chars ++ (m.delimiters escape).closing) ∧
      content.Holds cs chars ∧
      content.start = span.start + byteLength (m.delimiters escape).opening ∧
      content.stop + byteLength (m.delimiters escape).closing = span.stop
  | .directive kind none span => span.Holds cs ('@' :: kind.word.toList)
  | .directive kind (some args) span =>
    ∃ before chars after, span.Holds cs ('@' :: kind.word.toList ++ before ++ chars ++ after) ∧
      args.Holds cs chars ∧
      args.start = span.start + byteLength ('@' :: kind.word.toList ++ before) ∧
      args.stop + byteLength after = span.stop

namespace Lexed.Fits

variable {m : Markers} {cs : List Char} {l : Lexed} {t : Token}

theorem span_eq (h : l.Fits m t) : l.span = ⟨t.start, t.stop⟩ := by
  cases h <;> assumption

theorem holds (h : l.Fits m t) (ht : StandsAt 0 cs t.lexeme t.start) :
    l.span.Holds cs t.lexeme := by
  rw [h.span_eq]
  exact ⟨ht, rfl⟩

theorem shaped (h : l.Fits m t) (ht : StandsAt 0 cs t.lexeme t.start) : l.Shaped m cs := by
  have hholds := h.holds ht
  cases h with
  | text hspan => exact ⟨_, hholds⟩
  | directive hspan hlexeme =>
    subst hlexeme
    exact hholds
  | interpolation hspan hlexeme hcontent =>
    subst hspan hlexeme hcontent
    refine ⟨_, hholds, ht.holds_part, rfl, ?_⟩
    simp only [byteLength_append, Nat.add_assoc]
  | arguments before after hspan hlexeme hargs =>
    subst hspan hlexeme hargs
    refine ⟨before, _, after, hholds, ht.holds_part, rfl, ?_⟩
    simp only [byteLength_append, Nat.add_assoc]

theorem toToken_eq (h : l.Fits m t) (ht : StandsAt 0 cs t.lexeme t.start) : l.toToken cs = t := by
  have hkind : l.kind cs = t.kind := by
    cases h with
    | text => rfl
    | directive => rfl
    | interpolation _ hlexeme hcontent =>
      subst hlexeme hcontent
      rw [kind, ht.holds_part.slice_eq]
    | arguments before after _ hlexeme hargs =>
      subst hlexeme hargs
      rw [kind, Option.map_some, ht.holds_part.slice_eq]
  rw [toToken, hkind, (h.holds ht).slice_eq, h.span_eq]

end Lexed.Fits

namespace Token

open Piece

/-- The tokens lie one after the other over a text that begins at `offset`. -/
inductive Covers : Nat → List Char → List Token → Prop where
  | nil (offset : Nat) : Covers offset [] []
  | token {offset lexeme rest tokens} (kind : TokenKind) (hne : lexeme ≠ [])
      (h : Covers (offset + byteLength lexeme) rest tokens) :
      Covers offset (lexeme ++ rest) (⟨offset, lexeme, kind⟩ :: tokens)
  | gap {offset rest tokens} (word : List Char)
      (h : Covers (offset + 1 + byteLength ('@' :: word)) rest tokens) :
      Covers offset ('@' :: '@' :: word ++ rest) (⟨offset + 1, '@' :: word, .text⟩ :: tokens)

theorem Covers.ofText {offset : Nat} {front rest : List Char} {tokens : List Token}
    (h : Covers (offset + byteLength front) rest tokens) :
    Covers offset (front ++ rest) (ofText offset front ++ tokens) := by
  cases front with
  | nil => exact h
  | cons c front => exact .token .text (List.cons_ne_nil c front) h

theorem Covers.ofDoubled {offset : Nat} {word front rest : List Char} {tokens : List Token}
    (h : Covers (offset + byteLength ('@' :: '@' :: word) + byteLength front) rest tokens) :
    Covers offset ('@' :: '@' :: word ++ (front ++ rest))
      (Token.ofText (offset + 1) ('@' :: word ++ front) ++ tokens) := by
  have hlength : offset + byteLength ('@' :: '@' :: word) + byteLength front =
      offset + 1 + byteLength ('@' :: (word ++ front)) := by
    have hat : Char.utf8Size '@' = 1 := rfl
    simp only [byteLength_cons, byteLength_append, hat, Nat.add_assoc]
  rw [hlength] at h
  have hcovers := Covers.gap (word ++ front) h
  rw [← List.append_assoc]
  exact hcovers

/-- Behind the text at their front, the tokens of pieces cover the pieces. -/
theorem covers_tokensFrom {ps : List Piece} (hps : ∀ p ∈ ps, p.source ≠ []) (offset : Nat) :
    ∃ rest, ps.flatMap Piece.source = (tokensFrom offset ps).1 ++ rest ∧
      Covers (offset + byteLength (tokensFrom offset ps).1) rest (tokensFrom offset ps).2 := by
  induction ps generalizing offset with
  | nil => exact ⟨[], rfl, .nil offset⟩
  | cons p ps ih =>
    obtain ⟨hne, hall⟩ := List.forall_mem_cons.1 hps
    obtain ⟨rest, hrest, hcovers⟩ := ih hall (offset + byteLength p.source)
    rw [List.flatMap_cons]
    -- text goes on from what stands before it, a doubled sign begins it anew, all else ends it
    cases p with
    | text cs | unclosedInterpolation cs =>
      refine ⟨rest, ?_, ?_⟩
      · rw [hrest, ← List.append_assoc]
        rfl
      · rw [Nat.add_assoc, ← byteLength_append] at hcovers
        exact hcovers
    | verbatim word => exact ⟨_, rfl, hrest ▸ hcovers.ofDoubled⟩
    | interpolation escape opening content closing =>
      exact ⟨_, rfl, hrest ▸ .token _ hne hcovers.ofText⟩
    | directive kind lexeme args => exact ⟨_, rfl, hrest ▸ .token _ hne hcovers.ofText⟩
    | unclosedArgs kind lexeme args => exact ⟨_, rfl, hrest ▸ .token _ hne hcovers.ofText⟩

theorem covers_ofPieces (m : Markers) (cs : List Char) : Covers 0 cs (ofPieces m cs) := by
  obtain ⟨rest, hrest, hcovers⟩ := covers_tokensFrom (fun p hp => source_ne_nil (m := m) hp) 0
  rw [pieces_source] at hrest
  have hall := hcovers.ofText
  rw [← hrest] at hall
  exact hall

namespace Covers

variable {offset : Nat} {cs : List Char} {ts : List Token}

theorem offset_le_start {t : Token} (h : Covers offset cs ts) (ht : t ∈ ts) : offset ≤ t.start := by
  induction h with
  | nil => cases ht
  | token kind hne h ih =>
    rcases List.mem_cons.1 ht with rfl | ht
    · exact Nat.le_refl _
    · exact Nat.le_trans (Nat.le_add_right _ _) (ih ht)
  | gap word h ih =>
    rcases List.mem_cons.1 ht with rfl | ht
    · exact Nat.le_succ _
    · exact Nat.le_trans (Nat.le_trans (Nat.le_succ _) (Nat.le_add_right _ _)) (ih ht)

theorem standsAt {t : Token} (h : Covers offset cs ts) (ht : t ∈ ts) :
    t.lexeme ≠ [] ∧ StandsAt offset cs t.lexeme t.start := by
  induction h with
  | nil => cases ht
  | @token offset lexeme rest tokens kind hne h ih =>
    rcases List.mem_cons.1 ht with rfl | ht
    · exact ⟨hne, [], rest, rfl, rfl⟩
    · exact ⟨(ih ht).1, (ih ht).2.append lexeme⟩
  | @gap offset rest tokens word h ih =>
    rcases List.mem_cons.1 ht with rfl | ht
    · exact ⟨List.cons_ne_nil _ _, ['@'], rest, rfl, rfl⟩
    · exact ⟨(ih ht).1, ((ih ht).2.append ('@' :: word)).append ['@']⟩

theorem pairwise (h : Covers offset cs ts) : ts.Pairwise fun t u => t.stop ≤ u.start := by
  induction h with
  | nil => exact .nil
  | token kind hne h ih => exact .cons (fun _ hu => h.offset_le_start hu) ih
  | gap word h ih => exact .cons (fun _ hu => h.offset_le_start hu) ih

theorem covered {i : Nat} (h : Covers offset cs ts) (hle : offset ≤ i)
    (hlt : i < offset + byteLength cs) :
    (∃ t ∈ ts, t.start ≤ i ∧ i < t.stop) ∨
      (StandsAt offset cs ['@', '@'] i ∧ ∃ t ∈ ts, t.kind = .text ∧ t.start = i + 1) := by
  induction h with
  | nil => exact absurd hlt (Nat.not_lt.2 hle)
  | @token offset lexeme rest tokens kind hne h ih =>
    by_cases hin : i < offset + byteLength lexeme
    · exact .inl ⟨_, List.mem_cons_self, hle, hin⟩
    · rw [byteLength_append, ← Nat.add_assoc] at hlt
      rcases ih (Nat.not_lt.1 hin) hlt with ⟨t, ht, hheld⟩ | ⟨hgap, t, ht, hnext⟩
      · exact .inl ⟨t, .tail _ ht, hheld⟩
      · exact .inr ⟨hgap.append lexeme, t, .tail _ ht, hnext⟩
  | @gap offset rest tokens word h ih =>
    by_cases hfirst : i = offset
    · exact .inr ⟨⟨[], word ++ rest, rfl, hfirst⟩, _, List.mem_cons_self, rfl, by rw [hfirst]⟩
    · have hle : offset + 1 ≤ i := Nat.lt_of_le_of_ne hle (Ne.symm hfirst)
      by_cases hin : i < offset + 1 + byteLength ('@' :: word)
      · exact .inl ⟨_, List.mem_cons_self, hle, hin⟩
      · rw [List.cons_append, byteLength_cons, byteLength_append, ← Nat.add_assoc,
          ← Nat.add_assoc] at hlt
        rcases ih (Nat.not_lt.1 hin) hlt with ⟨t, ht, hheld⟩ | ⟨hgap, t, ht, hnext⟩
        · exact .inl ⟨t, .tail _ ht, hheld⟩
        · exact .inr ⟨(hgap.append ('@' :: word)).append ['@'], t, .tail _ ht, hnext⟩

end Covers

theorem errorsFrom_cons {p : Piece} (h : p.isUnclosed = false) (offset : Nat) (ps : List Piece) :
    errorsFrom offset (p :: ps) = errorsFrom (offset + byteLength p.source) ps := by
  cases p <;> first | rfl | cases h

theorem errorsFrom_singleton {p : Piece} (h : p.isUnclosed = true) (offset : Nat) :
    ∃ fault, errorsFrom offset [p] = [⟨fault, offset, offset + byteLength p.source⟩] := by
  cases p <;> first | exact ⟨_, rfl⟩ | cases h

theorem errorsFrom_eq_nil_iff {offset : Nat} {ps : List Piece} :
    errorsFrom offset ps = [] ↔ ∀ p ∈ ps, p.isUnclosed = false := by
  induction ps generalizing offset with
  | nil => simp [errorsFrom]
  | cons p ps ih => cases p <;> simp [errorsFrom, isUnclosed, ih]

theorem start_le_of_mem_errorsFrom {offset : Nat} {ps : List Piece} {e : TokenError}
    (h : e ∈ errorsFrom offset ps) : e.start ≤ e.stop := by
  induction ps generalizing offset with
  | nil => cases h
  | cons p ps ih =>
    cases p with
    | unclosedInterpolation | unclosedArgs =>
      rcases List.mem_cons.1 h with rfl | h
      · exact Nat.le_add_right _ _
      · exact ih h
    | _ => exact ih h

theorem errorsFrom_pieces (m : Markers) (cs : List Char) (offset : Nat) :
    (errorsFrom offset (pieces m cs)).length ≤ 1 ∧
      ∀ e ∈ errorsFrom offset (pieces m cs), e.stop = offset + byteLength cs := by
  fun_induction pieces m cs generalizing offset with
  | case1 => simp [errorsFrom]
  | case2 c cs ih =>
    have hcut := cut_isCut m c cs
    have hsource := hcut.append
    by_cases hopen : (cut m c cs).1.isUnclosed = true
    · have hrest := hcut.last hopen
      rw [hrest, List.append_nil] at hsource
      obtain ⟨fault, herrors⟩ := errorsFrom_singleton hopen offset
      rw [hrest, pieces_nil, herrors, ← hsource]
      simp
    · rw [errorsFrom_cons (Bool.eq_false_iff.2 hopen)]
      obtain ⟨hone, hstop⟩ := ih (offset + byteLength (cut m c cs).1.source)
      refine ⟨hone, ?_⟩
      intro e he
      rw [hstop e he, Nat.add_assoc, ← byteLength_append, hsource]

theorem errors_eq_errorsFrom (m : Markers) (cs : List Char) :
    errors m cs = errorsFrom 0 (pieces m cs) := errors_scan m cs

/-- The tokens of a template are those its pieces amount to. -/
theorem tokens_eq_ofPieces (m : Markers) (cs : List Char) : tokens m cs = ofPieces m cs := by
  have hstands : ∀ t ∈ ofPieces m cs, StandsAt 0 cs t.lexeme t.start := fun t ht =>
    ((covers_ofPieces m cs).standsAt ht).2
  have hall := (List.forall₂_and_left _ _).2 ⟨hstands, (scan_fits m cs).flip⟩
  have heq : List.Forall₂ (fun l t => l.toToken cs = t) (scan m cs).tokens (ofPieces m cs) :=
    hall.flip.imp fun l t h => h.2.toToken_eq h.1
  rwa [← List.forall₂_map_left_iff, List.forall₂_eq_eq_eq] at heq

theorem covers_tokens (m : Markers) (cs : List Char) : Covers 0 cs (tokens m cs) := by
  rw [tokens_eq_ofPieces]
  exact covers_ofPieces m cs

/-- The token has characters, and they stand in the template where it says. -/
structure Stands (cs : List Char) (t : Token) : Prop where
  ne_nil : t.lexeme ≠ []
  standsAt : StandsAt 0 cs t.lexeme t.start

theorem stands_tokens (m : Markers) (cs : List Char) : ∀ t ∈ tokens m cs, t.Stands cs :=
  fun _ ht => ⟨((covers_tokens m cs).standsAt ht).1, ((covers_tokens m cs).standsAt ht).2⟩

namespace Stands

variable {cs : List Char} {t : Token}

theorem start_lt_stop (h : t.Stands cs) : t.start < t.stop :=
  Token.start_lt_stop h.ne_nil

theorem stop_le (h : t.Stands cs) : t.stop ≤ byteLength cs := by
  obtain ⟨before, after, hcs, hstart⟩ := h.standsAt
  rw [hcs, Token.stop, hstart, byteLength_append, byteLength_append]
  omega

theorem start_le (h : t.Stands cs) : t.start ≤ byteLength cs :=
  Nat.le_trans (Nat.le_of_lt h.start_lt_stop) h.stop_le

end Stands

theorem fits_toToken {m : Markers} {cs : List Char} {l : Lexed} (h : l ∈ (scan m cs).tokens) :
    l.Fits m (l.toToken cs) := by
  have hall := scan_fits m cs
  rw [← tokens_eq_ofPieces, tokens, List.forall₂_map_right_iff, List.forall₂_same] at hall
  exact hall l h

theorem stop_toToken {m : Markers} {cs : List Char} {l : Lexed} (h : l ∈ (scan m cs).tokens) :
    (l.toToken cs).stop = l.span.stop :=
  congrArg Span.stop (fits_toToken h).span_eq.symm

/-- The tokens of a template, whatever its delimiters: none is empty, each lies between two
characters and holds what its characters say, they follow one another, and a byte that is in none of
them is the first of two `@` with a text token right behind it. At most one mistake shows, and it
runs to the end. -/
theorem tokens_partition (m : Markers) (cs : List Char) :
    (∀ l ∈ (scan m cs).tokens, l.span.start < l.span.stop ∧ l.Shaped m cs) ∧
      (scan m cs).tokens.Pairwise (fun l l' => l.span.stop ≤ l'.span.start) ∧
      (∀ i < byteLength cs,
        (∃ l ∈ (scan m cs).tokens, l.span.start ≤ i ∧ i < l.span.stop) ∨
          (StandsAt 0 cs ['@', '@'] i ∧ ∃ stop, .text ⟨i + 1, stop⟩ ∈ (scan m cs).tokens)) ∧
      (scan m cs).errors.length ≤ 1 ∧ ∀ e ∈ (scan m cs).errors, e.stop = byteLength cs := by
  have hcovers := covers_tokens m cs
  refine ⟨?_, ?_, ?_, ?_⟩
  · intro l hl
    obtain ⟨hne, hat⟩ := hcovers.standsAt (List.mem_map_of_mem hl)
    refine ⟨?_, (fits_toToken hl).shaped hat⟩
    rw [← stop_toToken hl]
    exact start_lt_stop hne
  · refine (List.pairwise_map.1 hcovers.pairwise).imp_of_mem ?_
    intro l l' hl _ hle
    rw [← stop_toToken hl]
    exact hle
  · intro i hi
    rcases hcovers.covered (Nat.zero_le i) (by rwa [Nat.zero_add]) with
      ⟨t, ht, hheld⟩ | ⟨hgap, t, ht, htext, hnext⟩
    · obtain ⟨l, hl, rfl⟩ := List.mem_map.1 ht
      rw [stop_toToken hl] at hheld
      exact .inl ⟨l, hl, hheld⟩
    · obtain ⟨l, hl, rfl⟩ := List.mem_map.1 ht
      cases l with
      | text span => exact .inr ⟨hgap, span.stop, hnext ▸ hl⟩
      | interpolation => cases htext
      | directive => cases htext
  · have herrors := errorsFrom_pieces m cs 0
    rw [Nat.zero_add] at herrors
    rw [errors_scan]
    exact herrors

end Token

end Templating
