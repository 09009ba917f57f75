import Mathlib
import Templating.Proofs.Expr.Printing
import Templating.Proofs.Template.Builder
import Templating.Proofs.Template.Partition

/-!
# Text that stays as it is

There are two ways to write a text so that a template shows it unchanged. With each `@` written twice
all of its pieces are text (`pieces_doubled`), as long as no delimiter opens an interpolation in it,
and so are the tokens and the nodes that come of them. As a literal between quotes it is one
interpolation (`pieces_interpolation`), whatever stands in it.
-/

namespace Templating

open Text

/-! ## Text in which each sign is written twice -/

def doubled (cs : List Char) : List Char :=
  cs.flatMap fun c => if c = '@' then ['@', '@'] else [c]

@[simp] theorem doubled_nil : doubled [] = [] := rfl

@[simp] theorem doubled_at (cs : List Char) : doubled ('@' :: cs) = '@' :: '@' :: doubled cs := rfl

theorem doubled_cons {c : Char} (hc : c ≠ '@') (cs : List Char) :
    doubled (c :: cs) = c :: doubled cs := by
  simp [doubled, hc]

theorem takeWhile_doubled (cs : List Char) :
    (doubled cs).takeWhile isNameChar = cs.takeWhile isNameChar := by
  induction cs with
  | nil => rfl
  | cons c cs ih =>
    by_cases hc : c = '@'
    · subst hc
      rfl
    · rw [doubled_cons hc, List.takeWhile_cons, List.takeWhile_cons, ih]

theorem dropWhile_doubled (cs : List Char) :
    (doubled cs).dropWhile isNameChar = doubled (cs.dropWhile isNameChar) := by
  induction cs with
  | nil => rfl
  | cons c cs ih =>
    by_cases hc : c = '@'
    · subst hc
      rfl
    · rw [doubled_cons hc, List.dropWhile_cons, List.dropWhile_cons, ih]
      split
      · rfl
      · rw [doubled_cons hc]

theorem prefix_of_prefix_doubled {opening cs : List Char} (hat : '@' ∉ opening)
    (h : opening <+: doubled cs) : opening <+: cs := by
  induction opening generalizing cs with
  | nil => exact List.nil_prefix
  | cons d opening ih =>
    obtain ⟨hd, hall⟩ := List.ne_and_not_mem_of_not_mem_cons hat
    cases cs with
    | nil => exact absurd (List.prefix_nil.1 h) (List.cons_ne_nil _ _)
    | cons c cs =>
      by_cases hc : c = '@'
      · subst hc
        exact absurd (List.cons_prefix_cons.1 h).1.symm hd
      · rw [doubled_cons hc, List.cons_prefix_cons] at h
        exact List.cons_prefix_cons.2 ⟨h.1, ih hall h.2⟩

namespace Piece

def isPlain : Piece → Bool
  | .text _ | .verbatim _ => true
  | _ => false

theorem isUnclosed_of_isPlain {p : Piece} (h : p.isPlain = true) : p.isUnclosed = false := by
  cases p <;> first | rfl | cases h

def shown : Piece → List Char
  | .text cs => cs
  | .verbatim word => '@' :: word
  | _ => []

/-- The delimiters hold no `@` and none of them begins in the text. -/
structure Spares (m : Markers) (cs : List Char) : Prop where
  sign : ∀ escape, '@' ∉ (m.delimiters escape).opening
  opening : ∀ escape, ¬(m.delimiters escape).opening <:+: cs

theorem Spares.of_suffix {m : Markers} {cs rest : List Char} (h : Spares m cs) (hrest : rest <:+ cs) :
    Spares m rest where
  sign := h.sign
  opening := fun escape hbegins => h.opening escape (hbegins.trans hrest.isInfix)

theorem Spares.opens_eq_false {m : Markers} {c : Char} {cs : List Char} (h : Spares m (c :: cs))
    (hc : c ≠ '@') (escape : Bool) : opens (m.delimiters escape) (c :: doubled cs) = false := by
  rw [← doubled_cons hc, Bool.eq_false_iff]
  intro hopens
  simp only [opens, Bool.and_eq_true, List.isPrefixOf_iff_prefix] at hopens
  exact h.opening escape (prefix_of_prefix_doubled (h.sign escape) hopens.2).isInfix

/-- The pieces of the doubled text are plain, and together they show the text. A piece takes in one
character, or a sign and the word behind it. -/
theorem pieces_doubled {m : Markers} {cs : List Char} (h : Spares m cs) :
    (∀ p ∈ pieces m (doubled cs), p.isPlain = true) ∧
      (pieces m (doubled cs)).flatMap shown = cs := by
  match cs with
  | [] => simp
  | c :: cs =>
    by_cases hc : c = '@'
    · subst hc
      have hcut : cut m '@' ('@' :: doubled cs) =
          (.verbatim (cs.takeWhile isNameChar), doubled (cs.dropWhile isNameChar)) := by
        rw [← takeWhile_doubled, ← dropWhile_doubled]
        rfl
      have hlength := (List.dropWhile_sublist isNameChar (l := cs)).length_le
      have hsuffix : cs.dropWhile isNameChar <:+ '@' :: cs :=
        (List.dropWhile_suffix _).trans (List.suffix_cons _ _)
      obtain ⟨hplain, hshown⟩ := pieces_doubled (h.of_suffix hsuffix)
      rw [doubled_at, pieces, hcut]
      refine ⟨List.forall_mem_cons.2 ⟨rfl, hplain⟩, ?_⟩
      rw [List.flatMap_cons, hshown, shown, List.cons_append, List.takeWhile_append_dropWhile]
    · have hcut : cut m c (doubled cs) = (.text [c], doubled cs) := by
        have hescaped : opens m.escaped (c :: doubled cs) = false := h.opens_eq_false hc true
        have hraw : opens m.raw (c :: doubled cs) = false := h.opens_eq_false hc false
        rw [cut, if_neg hc, hescaped, if_neg Bool.false_ne_true, hraw, if_neg Bool.false_ne_true]
      obtain ⟨hplain, hshown⟩ := pieces_doubled (h.of_suffix (List.suffix_cons c cs))
      rw [doubled_cons hc, pieces, hcut]
      refine ⟨List.forall_mem_cons.2 ⟨rfl, hplain⟩, ?_⟩
      rw [List.flatMap_cons, hshown]
      rfl
termination_by cs.length

end Piece

namespace Token

variable {ps : List Piece}

theorem flatMap_lexeme_ofText (start : Nat) (cs : List Char) :
    (ofText start cs).flatMap lexeme = cs := by
  cases cs <;> simp [ofText]

theorem kind_of_mem_ofText {start : Nat} {cs : List Char} {t : Token} (h : t ∈ ofText start cs) :
    t.kind = .text := by
  cases cs with
  | nil => cases h
  | cons c cs =>
    obtain rfl := List.mem_singleton.1 h
    rfl

theorem tokensFrom_plain (hps : ∀ p ∈ ps, p.isPlain = true) (offset : Nat) :
    (∀ t ∈ (tokensFrom offset ps).2, t.kind = .text) ∧
      (tokensFrom offset ps).1 ++ (tokensFrom offset ps).2.flatMap lexeme =
        ps.flatMap Piece.shown := by
  induction ps generalizing offset with
  | nil => simp [tokensFrom]
  | cons p ps ih =>
    obtain ⟨hp, hall⟩ := List.forall_mem_cons.1 hps
    obtain ⟨hkinds, hlexemes⟩ := ih hall (offset + byteLength p.source)
    rw [List.flatMap_cons, ← hlexemes]
    cases p with
    | text cs => exact ⟨hkinds, List.append_assoc _ _ _⟩
    | verbatim word =>
      refine ⟨fun t ht => ?_, ?_⟩
      · rcases List.mem_append.1 ht with ht | ht
        · exact kind_of_mem_ofText ht
        · exact hkinds t ht
      · rw [tokensFrom, List.flatMap_append, flatMap_lexeme_ofText, List.nil_append,
          List.append_assoc]
        rfl
    | _ => cases hp

end Token

namespace Node

def plainText (ns : List Node) : List Char :=
  ns.reverse.flatMap fun n => (n.text?.getD "").toList

end Node

namespace Draft

variable {ns : List Node}

theorem isText_consText (content : String) (loc : Location) (h : ∀ n ∈ ns, n.text?.isSome = true) :
    ∀ n ∈ consText content loc ns, n.text?.isSome = true := by
  unfold consText
  split
  · obtain ⟨-, hall⟩ := List.forall_mem_cons.1 h
    split
    · exact List.forall_mem_cons.2 ⟨rfl, hall⟩
    · exact List.forall_mem_cons.2 ⟨rfl, h⟩
  · exact List.forall_mem_cons.2 ⟨rfl, h⟩

theorem plainText_consText (content : String) (loc : Location) (ns : List Node) :
    Node.plainText (consText content loc ns) = Node.plainText ns ++ content.toList := by
  unfold consText
  split
  · split <;> simp [Node.plainText, Node.text?]
  · simp [Node.plainText, Node.text?]

end Draft

namespace Builder

theorem build_texts (source : Source) {ts : List Token} (hts : ∀ t ∈ ts, t.kind = .text) (d : Draft)
    (hd : ∀ n ∈ d.nodes, n.text?.isSome = true) :
    (∀ n ∈ (build source d [] ts).nodes, n.text?.isSome = true) ∧
      Node.plainText (build source d [] ts).nodes =
        Node.plainText d.nodes ++ ts.flatMap Token.lexeme ∧
      (build source d [] ts).errors = d.errors := by
  induction ts generalizing d with
  | nil => exact ⟨hd, (List.append_nil _).symm, rfl⟩
  | cons t ts ih =>
    obtain ⟨ht, hall⟩ := List.forall_mem_cons.1 hts
    have htake : take source ⟨d, []⟩ t =
        ⟨d.pushText t.lexeme (source.location t.start t.stop), []⟩ := by
      simp only [take, ht]
    rw [build_cons, htake]
    obtain ⟨htexts, hplain, herrors⟩ := ih hall
      (d.pushText t.lexeme (source.location t.start t.stop)) (Draft.isText_consText _ _ hd)
    refine ⟨htexts, ?_, herrors⟩
    rw [hplain, Draft.pushText, Draft.plainText_consText, String.toList_ofList, List.append_assoc,
      List.flatMap_cons]

end Builder

/-- With each `@` written twice, a text in which nothing opens is parsed to text nodes that hold it,
and there are no errors. -/
theorem parseTemplate_doubled {m : Markers} {text : String} (h : Piece.Spares m text.toList) :
    (parseTemplate m (String.ofList (doubled text.toList))).errors = [] ∧
      ∃ ns, (parseTemplate m (String.ofList (doubled text.toList))).root.children = ns.reverse ∧
        (∀ n ∈ ns, n.text?.isSome = true) ∧ Node.plainText ns = text.toList := by
  obtain ⟨hplain, hshown⟩ := Piece.pieces_doubled h
  obtain ⟨hkinds, hlexemes⟩ := Token.tokensFrom_plain hplain 0
  have hearly : Token.errors m (doubled text.toList) = [] := by
    rw [Token.errors_eq_errorsFrom, Token.errorsFrom_eq_nil_iff]
    exact fun p hp => Piece.isUnclosed_of_isPlain (hplain p hp)
  have hall : ∀ t ∈ Token.tokens m (doubled text.toList), t.kind = .text := by
    rw [Token.tokens_eq_ofPieces]
    intro t ht
    rcases List.mem_append.1 ht with ht | ht
    · exact Token.kind_of_mem_ofText ht
    · exact hkinds t ht
  have htokens : (Token.tokens m (doubled text.toList)).flatMap Token.lexeme = text.toList := by
    rw [Token.tokens_eq_ofPieces, Token.ofPieces, List.flatMap_append, Token.flatMap_lexeme_ofText,
      hlexemes, hshown]
  obtain ⟨htexts, hnodes, herrors⟩ := Builder.build_texts (Source.ofChars (doubled text.toList)) hall
    Draft.empty (fun n hn => nomatch hn)
  simp only [parseTemplate, String.toList_ofList, parseTokens_eq_build, hearly]
  refine ⟨by rw [herrors]; rfl, _, rfl, htexts, ?_⟩
  rw [hnodes, htokens]
  rfl

/-! ## Text as a literal -/

/-- An interpolation of the text as a literal between single quotes, with a blank on either side. -/
def quoted (escape : Bool) (cs : List Char) : List Char :=
  let d := Markers.standard.delimiters escape
  d.opening ++ ' ' :: '\x27' :: Quoted.protect '\x27' cs ++ '\x27' :: ' ' :: d.closing

namespace Piece

theorem spanContent?_literal (closing cs : List Char) (hblank : closing.head? ≠ some ' ')
    (hne : closing ≠ []) (hquote : closing.head?.any Quoted.isQuote = false) :
    spanContent? closing (' ' :: '\x27' :: Quoted.protect '\x27' cs ++ '\x27' :: ' ' :: closing) =
      some (' ' :: '\x27' :: Quoted.protect '\x27' cs ++ ['\x27', ' '], []) := by
  obtain ⟨d, ds, rfl⟩ := List.exists_cons_of_ne_nil hne
  have hd : d ≠ ' ' := by simpa using hblank
  have hlast : spanContent? (d :: ds) (' ' :: d :: ds) = some ([' '], []) := by
    have hend : spanContent? (d :: ds) (d :: ds) = some ([], []) := by
      simp_all [spanContent?]
    rw [spanContent?_cons, if_neg (by decide), if_neg (by simp [hd]), hend]
    rfl
  have hsplit : Quoted.split? '\x27' (Quoted.protect '\x27' cs ++ '\x27' :: ' ' :: d :: ds) =
      some (Quoted.protect '\x27' cs ++ ['\x27'], ' ' :: d :: ds) :=
    Quoted.split?_protect (by decide) _ _
  have hrun : spanContent? (d :: ds)
      ('\x27' :: (Quoted.protect '\x27' cs ++ '\x27' :: ' ' :: d :: ds)) =
      some ('\x27' :: (Quoted.protect '\x27' cs ++ ['\x27', ' ']), []) := by
    rw [spanContent?_cons, if_pos (by decide), hsplit, Option.bind_some]
    simp [hlast]
  rw [List.cons_append, List.cons_append, spanContent?_cons, if_neg (by decide),
    if_neg (by simp [hd]), hrun]
  rfl

/-- Neither of the standard delimiters hides the other. -/
theorem exists_cut_standard (escape : Bool) (rest : List Char) :
    ∃ cs, (Markers.standard.delimiters escape).opening ++ rest = '\x7b' :: cs ∧
      cut Markers.standard '\x7b' cs =
        cutInterpolation escape (Markers.standard.delimiters escape) ('\x7b' :: cs) := by
  cases escape <;> exact ⟨_, rfl, rfl⟩

theorem pieces_interpolation (escape : Bool) {content : List Char}
    (hspan : spanContent? (Markers.standard.delimiters escape).closing
      (content ++ (Markers.standard.delimiters escape).closing) = some (content, [])) :
    pieces Markers.standard ((Markers.standard.delimiters escape).opening ++ content ++
        (Markers.standard.delimiters escape).closing) =
      [.interpolation escape (Markers.standard.delimiters escape).opening content
        (Markers.standard.delimiters escape).closing] := by
  obtain ⟨cs, hcs, hopens⟩ := exists_cut_standard escape
    (content ++ (Markers.standard.delimiters escape).closing)
  have hcut : cutInterpolation escape (Markers.standard.delimiters escape) ('\x7b' :: cs) =
      (.interpolation escape (Markers.standard.delimiters escape).opening content
        (Markers.standard.delimiters escape).closing, []) := by
    rw [← hcs, cutInterpolation, List.drop_left, hspan]
  rw [List.append_assoc, hcs, pieces, hopens, hcut, pieces_nil]

end Piece

theorem parse_literal (text : String) :
    Expr.parse (String.ofList (' ' :: '\x27' :: Quoted.protect '\x27' text.toList ++ ['\x27', ' '])) =
      .text text := by
  have hwritten := Expr.prints_written (e := .text text) rfl
  have hprints := hwritten.loosen (b := .or) Expr.Level.noConfusion (Nat.zero_le _)
  have hgap : ∀ i, ∀ c ∈ (fun _ : Nat => [' ']) i, Expr.isGap c = true := by simp [Expr.isGap]
  have hspaced : Expr.spaced (fun _ => [' ']) (Expr.written (.text text)) =
      ' ' :: '\x27' :: Quoted.protect '\x27' text.toList ++ ['\x27', ' '] := by
    simp [Expr.text, Expr.written, Expr.literalTokens, Expr.spaced, Expr.TokenKind.spelling]
  rw [← hspaced, Expr.parse, Expr.parse?_spaced hprints.derives hprints.spellable hgap]

theorem parseTemplate_interpolation (escape : Bool) {content : List Char}
    (hspan : Piece.spanContent? (Markers.standard.delimiters escape).closing
      (content ++ (Markers.standard.delimiters escape).closing) = some (content, [])) :
    let d := Markers.standard.delimiters escape
    (parseTemplate Markers.standard (String.ofList (d.opening ++ content ++ d.closing))).errors = [] ∧
      ∃ loc, (parseTemplate Markers.standard
        (String.ofList (d.opening ++ content ++ d.closing))).root.children =
          [.interpolation (Expr.parse (String.ofList content)) escape loc] := by
  intro d
  have hpieces := Piece.pieces_interpolation escape hspan
  have hearly : Token.errors Markers.standard (d.opening ++ content ++ d.closing) = [] := by
    rw [Token.errors, errors_scan, Token.errorsOfPieces, hpieces]
    rfl
  simp only [parseTemplate, String.toList_ofList, parseTokens_eq_build, hearly]
  rw [Token.tokens_eq_ofPieces, Token.ofPieces, hpieces]
  exact ⟨rfl, _, rfl⟩

/-- A text as a literal is parsed to one interpolation of it, and there are no errors. -/
theorem parseTemplate_quoted (escape : Bool) (text : String) :
    (parseTemplate Markers.standard (String.ofList (quoted escape text.toList))).errors = [] ∧
      ∃ loc, (parseTemplate Markers.standard (String.ofList (quoted escape text.toList))).root.children =
        [.interpolation (.text text) escape loc] := by
  have hspan := Piece.spanContent?_literal (Markers.standard.delimiters escape).closing text.toList
    (by cases escape <;> decide) (by cases escape <;> decide) (by cases escape <;> decide)
  have hcontent (closing : List Char) :
      ' ' :: '\x27' :: Quoted.protect '\x27' text.toList ++ '\x27' :: ' ' :: closing =
        ' ' :: '\x27' :: Quoted.protect '\x27' text.toList ++ ['\x27', ' '] ++ closing := by
    simp
  have hsource : quoted escape text.toList = (Markers.standard.delimiters escape).opening ++
      (' ' :: '\x27' :: Quoted.protect '\x27' text.toList ++ ['\x27', ' ']) ++
        (Markers.standard.delimiters escape).closing := by
    rw [quoted, List.append_assoc, List.append_assoc, hcontent, List.append_assoc]
  rw [hcontent] at hspan
  rw [hsource, ← parse_literal text]
  exact parseTemplate_interpolation escape hspan

end Templating
