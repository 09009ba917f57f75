import Mathlib
import Templating.Proofs.Template.Piece

/-!
# Places between characters

The scanner walks over bytes, the pieces are cut from characters. Between two characters both see
the same: the scanners of runs, of delimiters and of parentheses go from such a place to such a
place, however many bytes a character has. They rely on two facts of the encoding. What they look for
is of ASCII or begins with the first byte of a character, and inside a character neither stands.
-/

namespace Templating

open Text

namespace Place

def ofChars (index : Nat) (cs : List Char) : Place :=
  ⟨index, utf8 cs⟩

@[simp] theorem ofChars_index (index : Nat) (cs : List Char) : (ofChars index cs).index = index :=
  rfl

theorem forward_ofChars (index : Nat) (cs ds : List Char) :
    (ofChars index (cs ++ ds)).forward (byteLength cs) = ofChars (index + byteLength cs) ds := by
  rw [ofChars, forward, utf8_append, ← length_utf8, List.drop_left]
  rfl

theorem forward_one_ofChars {c : Char} (hc : isAscii c = true) (index : Nat) (cs : List Char) :
    (ofChars index (c :: cs)).forward 1 = ofChars (index + 1) cs := by
  have hone := forward_ofChars index [c] cs
  rw [byteLength_cons, utf8Size_of_isAscii hc] at hone
  exact hone

theorem finish_ofChars (index : Nat) (cs : List Char) :
    (ofChars index cs).finish = ofChars (index + byteLength cs) [] := by
  have hall := forward_ofChars index cs []
  rw [List.append_nil] at hall
  rw [finish, show (ofChars index cs).rest = utf8 cs from rfl, length_utf8, hall]

theorem startsWithChar_ofChars {a : Char} (ha : isAscii a = true) (index : Nat) (cs : List Char) :
    (ofChars index cs).startsWithChar a = (cs.head? == some a) := by
  cases cs with
  | nil => rfl
  | cons c cs =>
    obtain ⟨b, tail, hc, -, -⟩ := utf8EncodeChar_eq_cons c
    have hhead : (ofChars index (c :: cs)).rest.head? = some b := by
      rw [ofChars, utf8_cons, hc]
      rfl
    rw [startsWithChar, hhead, List.head?_cons, Bool.eq_iff_iff, beq_iff_eq, beq_iff_eq,
      Option.some_inj, Option.some_inj]
    constructor
    · rintro rfl
      exact eq_of_toUInt8_mem ha (hc ▸ List.mem_cons_self)
    · rintro rfl
      rw [utf8EncodeChar_of_isAscii ha] at hc
      exact (List.cons.inj hc).1.symm

/-- The class does not tell characters outside of ASCII apart. -/
def IsByteClass (q : Char → Bool) : Prop :=
  ∀ c d, isAscii c = false → isAscii d = false → q c = q d

theorem isByteClass_of_isAscii {q : Char → Bool} (h : ∀ c, q c = true → isAscii c = true) :
    IsByteClass q := by
  have hfalse : ∀ c, isAscii c = false → q c = false := by
    intro c hc
    rw [Bool.eq_false_iff]
    intro hq
    rw [h c hq] at hc
    cases hc
  intro c d hc hd
  rw [hfalse c hc, hfalse d hd]

theorem isAscii_of_isNameChar (c : Char) (h : isNameChar c = true) : isAscii c = true := by
  refine decide_eq_true ?_
  simp only [isNameChar, Char.isAlpha, Char.isUpper, Char.isLower, Bool.or_eq_true,
    Bool.and_eq_true, decide_eq_true_eq, beq_iff_eq] at h
  rcases h with (⟨-, hle⟩ | ⟨-, hle⟩) | rfl
  · exact UInt32.le_trans hle (by decide)
  · exact UInt32.le_trans hle (by decide)
  · decide

theorem isByteClass_isNameChar : IsByteClass isNameChar :=
  isByteClass_of_isAscii isAscii_of_isNameChar

theorem isByteClass_isQuote : IsByteClass Quoted.isQuote := by
  refine isByteClass_of_isAscii fun c h => ?_
  simp only [Quoted.isQuote, Bool.or_eq_true, beq_iff_eq] at h
  rcases h with rfl | rfl <;> decide

theorem isByteClass_isInlineBlank : IsByteClass isInlineBlank := by
  refine isByteClass_of_isAscii fun c h => ?_
  simp only [isInlineBlank, Bool.or_eq_true, beq_iff_eq] at h
  rcases h with (rfl | rfl) | rfl <;> decide

theorem isByteClass_isAsciiBlank : IsByteClass isAsciiBlank := by
  refine isByteClass_of_isAscii fun c h => ?_
  simp only [isAsciiBlank, Bool.or_eq_true, beq_iff_eq] at h
  rcases h with (((rfl | rfl) | rfl) | rfl) | rfl <;> decide

theorem isByteClass_ne_newline : IsByteClass (· != '\n') := by
  have htrue : ∀ c, isAscii c = false → (c != '\n') = true := by
    intro c hc
    rw [bne_iff_ne]
    rintro rfl
    exact absurd hc (by decide)
  intro c d hc hd
  simp only [htrue c hc, htrue d hd]

theorem toNat_ofUInt8 (b : UInt8) : (Char.ofUInt8 b).toNat = b.toNat :=
  UInt8.toNat_toUInt32 b

theorem isByte_of_mem {q : Char → Bool} (hq : IsByteClass q) {c : Char} {b : UInt8}
    (hb : b ∈ String.utf8EncodeChar c) : isByte q b = q c := by
  cases hc : isAscii c with
  | true =>
    rw [utf8EncodeChar_of_isAscii hc, List.mem_singleton] at hb
    have hchar : Char.ofUInt8 b = c := by
      rw [← Char.toNat_inj, toNat_ofUInt8, hb, toNat_toUInt8_of_isAscii hc]
    rw [isByte, hchar]
  | false =>
    refine hq _ _ ?_ hc
    have hge := le_of_mem_utf8EncodeChar hc hb
    rw [isAscii, decide_eq_false_iff_not, UInt32.le_iff_toNat_le]
    have htoNat := toNat_ofUInt8 b
    rw [Char.toNat] at htoNat
    rw [htoNat]
    exact Nat.not_le.2 hge

variable {q : Char → Bool}

theorem run_ofChars (hq : IsByteClass q) (index : Nat) (cs : List Char) :
    (ofChars index cs).run q = utf8 (cs.takeWhile q) := by
  unfold run ofChars
  induction cs with
  | nil => rfl
  | cons c cs ih =>
    cases hc : q c with
    | true =>
      have hall : ∀ b ∈ String.utf8EncodeChar c, isByte q b = true :=
        fun b hb => (isByte_of_mem hq hb).trans hc
      rw [List.takeWhile_cons_of_pos hc, utf8_cons, utf8_cons, List.takeWhile_append_of_pos hall]
      exact congrArg _ ih
    | false =>
      obtain ⟨b, tail, hbytes, -, -⟩ := utf8EncodeChar_eq_cons c
      have hb : isByte q b = false :=
        (isByte_of_mem hq (hbytes ▸ List.mem_cons_self)).trans hc
      rw [List.takeWhile_cons_of_neg (by simp [hc]), utf8_cons, hbytes, List.cons_append,
        List.takeWhile_cons_of_neg (by simp [hb])]
      rfl

theorem skip_ofChars (hq : IsByteClass q) (index : Nat) (cs : List Char) :
    (ofChars index cs).skip q = ofChars (index + byteLength (cs.takeWhile q)) (cs.dropWhile q) := by
  have hforward := forward_ofChars index (cs.takeWhile q) (cs.dropWhile q)
  rw [List.takeWhile_append_dropWhile] at hforward
  rw [skip, run_ofChars hq, length_utf8, hforward]

theorem all_run_ofChars {r : Char → Bool} (hr : IsByteClass r) (cs : List Char) :
    (utf8 cs).all (isByte r) = cs.all r := by
  induction cs with
  | nil => rfl
  | cons c cs ih =>
    rw [utf8_cons, List.all_append, ih, List.all_cons]
    congr 1
    rw [Bool.eq_iff_iff, List.all_eq_true]
    constructor
    · intro hall
      obtain ⟨b, tail, hbytes, -, -⟩ := utf8EncodeChar_eq_cons c
      have hmem : b ∈ String.utf8EncodeChar c := hbytes ▸ List.mem_cons_self
      rw [← isByte_of_mem hr hmem]
      exact hall b hmem
    · intro hc b hb
      exact (isByte_of_mem hr hb).trans hc

theorem ne_of_not_isUTF8FirstByte {a : Char} (ha : isAscii a = true) {x : UInt8}
    (hx : ¬x.IsUTF8FirstByte) : x ≠ a.toUInt8 := by
  rintro rfl
  obtain ⟨b, tail, hbytes, hfirst, -⟩ := utf8EncodeChar_eq_cons a
  rw [utf8EncodeChar_of_isAscii ha] at hbytes
  obtain ⟨rfl, -⟩ := List.cons.inj hbytes
  exact hx hfirst

theorem skipQuoted?_cons {quote b : UInt8} (h : b ≠ '\x5c'.toUInt8) (index : Nat)
    (bs : List UInt8) :
    skipQuoted? quote index (b :: bs) =
      if b = quote then some ⟨index + 1, bs⟩ else skipQuoted? quote (index + 1) bs := by
  rw [skipQuoted?.eq_def]
  simp only [if_neg h]

theorem skipQuoted?_append {quote : UInt8} {l : List UInt8}
    (h : ∀ b ∈ l, b ≠ '\x5c'.toUInt8 ∧ b ≠ quote) (index : Nat) (bs : List UInt8) :
    skipQuoted? quote index (l ++ bs) = skipQuoted? quote (index + l.length) bs := by
  induction l generalizing index with
  | nil => rfl
  | cons b l ih =>
    obtain ⟨⟨hslash, hquote⟩, hall⟩ := List.forall_mem_cons.1 h
    rw [List.cons_append, skipQuoted?_cons hslash, if_neg hquote, ih hall, List.length_cons,
      Nat.add_assoc, Nat.add_comm 1]

/-- The place behind a text that was found, when the rest and, before it, `closing` follow. -/
def behind (index : Nat) (closing : List Char) (found : List Char × List Char) : Place :=
  ofChars (index + byteLength found.1) (closing ++ found.2)

@[simp] theorem behind_index (index : Nat) (closing : List Char)
    (found : List Char × List Char) :
    (behind index closing found).index = index + byteLength found.1 :=
  rfl

theorem forward_behind (index : Nat) (closing : List Char) (found : List Char × List Char) :
    (behind index closing found).forward (byteLength closing) =
      ofChars (index + byteLength found.1 + byteLength closing) found.2 :=
  forward_ofChars _ _ _

theorem forward_one_behind {c : Char} (hc : isAscii c = true) (index : Nat)
    (found : List Char × List Char) :
    (behind index [c] found).forward 1 = ofChars (index + byteLength found.1 + 1) found.2 :=
  forward_one_ofChars hc _ _

theorem map_behind (index : Nat) (closing front : List Char)
    (found : Option (List Char × List Char)) :
    (found.map fun (text, rest) => (front ++ text, rest)).map (behind index closing) =
      found.map (behind (index + byteLength front) closing) := by
  rw [Option.map_map]
  congr 1
  funext found
  simp only [Function.comp_apply, behind, byteLength_append, Nat.add_assoc]

theorem skipQuoted?_utf8 {quote : Char} (hascii : isAscii quote = true) (hne : quote ≠ '\x5c')
    (index : Nat) (cs : List Char) :
    skipQuoted? quote.toUInt8 index (utf8 cs) =
      (Quoted.split? quote cs).map (behind index []) := by
  have hslash : isAscii '\x5c' = true := by decide
  fun_induction Quoted.split? quote cs generalizing index with
  | case1 => rfl
  | case2 => rfl
  | case3 c cs ih =>
    obtain ⟨b, tail, hbytes, -, htail⟩ := utf8EncodeChar_eq_cons c
    have hsize : c.utf8Size = tail.length + 1 := by
      rw [← String.length_utf8EncodeChar, hbytes, List.length_cons]
    have hblock : ∀ x ∈ tail, x ≠ '\x5c'.toUInt8 ∧ x ≠ quote.toUInt8 := fun x hx =>
      ⟨ne_of_not_isUTF8FirstByte hslash (htail x hx), ne_of_not_isUTF8FirstByte hascii (htail x hx)⟩
    rw [utf8_cons_of_isAscii hslash, utf8_cons, hbytes, List.cons_append, skipQuoted?, if_pos rfl]
    simp only
    have hplace : index + 2 + tail.length = index + byteLength ['\x5c', c] := by
      rw [byteLength_cons, byteLength_cons, byteLength_nil, utf8Size_of_isAscii hslash, hsize]
      omega
    rw [skipQuoted?_append hblock, ih, hplace]
    exact (map_behind index [] ['\x5c', c] _).symm
  | case4 cs _ _ =>
    have hquote : quote.toUInt8 ≠ '\x5c'.toUInt8 := by
      intro heq
      have hmem : '\x5c'.toUInt8 ∈ String.utf8EncodeChar quote := by
        rw [utf8EncodeChar_of_isAscii hascii, heq]
        exact List.mem_singleton_self _
      exact hne (eq_of_toUInt8_mem hslash hmem)
    rw [utf8_cons_of_isAscii hascii, skipQuoted?_cons hquote, if_pos rfl]
    simp only [Option.map_some, behind, byteLength_cons, byteLength_nil, utf8Size_of_isAscii hascii]
    rfl
  | case5 c cs hlast hmore hc ih =>
    have hcne : c ≠ '\x5c' := Quoted.ne_backslash hlast hmore
    have hblock : ∀ x ∈ String.utf8EncodeChar c, x ≠ '\x5c'.toUInt8 ∧ x ≠ quote.toUInt8 := by
      intro x hx
      constructor
      · rintro rfl
        exact hcne (eq_of_toUInt8_mem hslash hx)
      · rintro rfl
        exact hc (eq_of_toUInt8_mem hascii hx)
    rw [utf8_cons, skipQuoted?_append hblock, ih, String.length_utf8EncodeChar]
    exact (map_behind index [] [c] _).symm

theorem isByte_isQuote_of_not_isUTF8FirstByte {x : UInt8} (hx : ¬x.IsUTF8FirstByte) :
    isByte Quoted.isQuote x = false := by
  rw [Bool.eq_false_iff]
  intro hquote
  simp only [isByte, Quoted.isQuote, Bool.or_eq_true, beq_iff_eq] at hquote
  have hchar : (Char.ofUInt8 x).toUInt8 = x := UInt8.toUInt8_toUInt32 x
  rcases hquote with h | h <;> rw [h] at hchar
  · exact ne_of_not_isUTF8FirstByte (by decide) hx hchar.symm
  · exact ne_of_not_isUTF8FirstByte (by decide) hx hchar.symm

theorem findClosing?_nil (closing : List UInt8) (index : Nat) :
    findClosing? closing ⟨index, []⟩ = none := by
  rw [findClosing?.eq_def]

theorem findClosing?_cons (closing : List UInt8) (index : Nat) (b : UInt8) (bs : List UInt8) :
    findClosing? closing ⟨index, b :: bs⟩ =
      if isByte Quoted.isQuote b then
        (skipQuoted? b (index + 1) bs).bind (findClosing? closing)
      else if closing.isPrefixOf (b :: bs) then some ⟨index, b :: bs⟩
      else findClosing? closing ⟨index + 1, bs⟩ := by
  rw [findClosing?.eq_def]
  simp only
  split
  · split
    · rename_i hskip
      rw [hskip]
      rfl
    · rename_i hskip
      rw [hskip]
      rfl
  · rfl

theorem isPrefixOf_utf8_eq_false {ds : List Char} (hds : ds ≠ []) {x : UInt8}
    (hx : ¬x.IsUTF8FirstByte) (bs : List UInt8) : (utf8 ds).isPrefixOf (x :: bs) = false := by
  cases ds with
  | nil => exact absurd rfl hds
  | cons d ds =>
    obtain ⟨b, tail, hbytes, hfirst, -⟩ := utf8EncodeChar_eq_cons d
    rw [utf8_cons, hbytes, Bool.eq_false_iff]
    intro h
    obtain ⟨rfl, -⟩ := List.cons_prefix_cons.1 (List.isPrefixOf_iff_prefix.1 h)
    exact hx hfirst

theorem findClosing?_append {closing : List Char} (hclosing : closing ≠ []) {l : List UInt8}
    (hl : ∀ x ∈ l, ¬x.IsUTF8FirstByte) (index : Nat) (bs : List UInt8) :
    findClosing? (utf8 closing) ⟨index, l ++ bs⟩ =
      findClosing? (utf8 closing) ⟨index + l.length, bs⟩ := by
  induction l generalizing index with
  | nil => rfl
  | cons x l ih =>
    obtain ⟨hx, hall⟩ := List.forall_mem_cons.1 hl
    rw [List.cons_append, findClosing?_cons, isByte_isQuote_of_not_isUTF8FirstByte hx,
      isPrefixOf_utf8_eq_false hclosing hx]
    simp only [Bool.false_eq_true, if_false]
    rw [ih hall, List.length_cons, Nat.add_assoc, Nat.add_comm 1]

theorem isAscii_of_isQuote {c : Char} (h : Quoted.isQuote c = true) :
    isAscii c = true ∧ c ≠ '\x5c' := by
  simp only [Quoted.isQuote, Bool.or_eq_true, beq_iff_eq] at h
  rcases h with rfl | rfl <;> decide

theorem isByte_toUInt8 {r : Char → Bool} (hr : IsByteClass r) {c : Char} (hc : isAscii c = true) :
    isByte r c.toUInt8 = r c := by
  refine isByte_of_mem hr ?_
  rw [utf8EncodeChar_of_isAscii hc]
  exact List.mem_singleton_self _

theorem findClosing?_of_isQuote {c : Char} (hquote : Quoted.isQuote c = true)
    (closing : List UInt8) (index : Nat) (cs : List Char) :
    findClosing? closing (ofChars index (c :: cs)) =
      ((Quoted.split? c cs).map (behind (index + 1) [])).bind (findClosing? closing) := by
  obtain ⟨hascii, hne⟩ := isAscii_of_isQuote hquote
  rw [ofChars, utf8_cons_of_isAscii hascii, findClosing?_cons,
    isByte_toUInt8 isByteClass_isQuote hascii, if_pos hquote, skipQuoted?_utf8 hascii hne]

theorem findClosing?_ofChars (closing : List Char) (index : Nat) (cs : List Char) :
    findClosing? (utf8 closing) (ofChars index cs) =
      (Piece.spanContent? closing cs).map (behind index closing) := by
  fun_induction Piece.spanContent? closing cs generalizing index with
  | case1 => exact findClosing?_nil _ index
  | case2 c ds hquote hsplit =>
    rw [findClosing?_of_isQuote hquote, hsplit]
    rfl
  | case3 c ds hquote run rest hsplit _ ih =>
    rw [findClosing?_of_isQuote hquote, hsplit, Option.map_some, Option.bind_some]
    refine (ih _).trans ((map_behind index closing (c :: run) _).trans ?_).symm
    rw [byteLength_cons, utf8Size_of_isAscii (isAscii_of_isQuote hquote).1, ← Nat.add_assoc]
  | case4 c ds hquote hprefix =>
    have hprefix := List.isPrefixOf_iff_prefix.1 hprefix
    obtain ⟨b, tail, hbytes, -, -⟩ := utf8EncodeChar_eq_cons c
    have hb : isByte Quoted.isQuote b = Quoted.isQuote c :=
      isByte_of_mem isByteClass_isQuote (hbytes ▸ List.mem_cons_self)
    have hmatch : (utf8 closing).isPrefixOf (utf8 (c :: ds)) = true :=
      List.isPrefixOf_iff_prefix.2 (utf8_prefix_iff.2 hprefix)
    rw [utf8_cons, hbytes, List.cons_append] at hmatch
    rw [ofChars, utf8_cons, hbytes, List.cons_append, findClosing?_cons, hb, if_neg hquote,
      if_pos hmatch, Option.map_some]
    simp only [behind, List.prefix_iff_eq_append.1 hprefix, ofChars, utf8_cons, hbytes,
      byteLength_nil, Nat.add_zero, List.cons_append]
  | case5 c ds hquote hprefix ih =>
    have hclosing : closing ≠ [] := by
      rintro rfl
      exact hprefix rfl
    obtain ⟨b, tail, hbytes, -, htail⟩ := utf8EncodeChar_eq_cons c
    have hb : isByte Quoted.isQuote b = Quoted.isQuote c :=
      isByte_of_mem isByteClass_isQuote (hbytes ▸ List.mem_cons_self)
    have hmatch : ¬(utf8 closing).isPrefixOf (utf8 (c :: ds)) = true := by
      rw [List.isPrefixOf_iff_prefix, utf8_prefix_iff, ← List.isPrefixOf_iff_prefix]
      exact hprefix
    have hsize : c.utf8Size = 1 + tail.length := by
      rw [← String.length_utf8EncodeChar, hbytes, List.length_cons, Nat.add_comm]
    rw [utf8_cons, hbytes, List.cons_append] at hmatch
    rw [ofChars, utf8_cons, hbytes, List.cons_append, findClosing?_cons, hb, if_neg hquote,
      if_neg hmatch, findClosing?_append hclosing htail, Nat.add_assoc, ← hsize]
    exact (ih (index + c.utf8Size)).trans (map_behind index closing [c] _).symm

theorem findParen?_nil (depth index : Nat) : findParen? depth ⟨index, []⟩ = none := by
  rw [findParen?.eq_def]

theorem findParen?_cons (depth index : Nat) (b : UInt8) (bs : List UInt8) :
    findParen? depth ⟨index, b :: bs⟩ =
      if isByte Quoted.isQuote b then
        (skipQuoted? b (index + 1) bs).bind (findParen? depth)
      else if b = '('.toUInt8 then findParen? (depth + 1) ⟨index + 1, bs⟩
      else if b = ')'.toUInt8 then
        if depth - 1 = 0 then some ⟨index, b :: bs⟩ else findParen? (depth - 1) ⟨index + 1, bs⟩
      else findParen? depth ⟨index + 1, bs⟩ := by
  rw [findParen?.eq_def]
  simp only
  split
  · split
    · rename_i hskip
      rw [hskip]
      rfl
    · rename_i hskip
      rw [hskip]
      rfl
  · rfl

theorem findParen?_append (depth : Nat) {l : List UInt8}
    (hl : ∀ b ∈ l, isByte Quoted.isQuote b = false ∧ b ≠ '('.toUInt8 ∧ b ≠ ')'.toUInt8)
    (index : Nat) (bs : List UInt8) :
    findParen? depth ⟨index, l ++ bs⟩ = findParen? depth ⟨index + l.length, bs⟩ := by
  induction l generalizing index with
  | nil => rfl
  | cons b l ih =>
    obtain ⟨⟨hquote, hopen, hclose⟩, hall⟩ := List.forall_mem_cons.1 hl
    rw [List.cons_append, findParen?_cons, if_neg (by rw [hquote]; decide), if_neg hopen,
      if_neg hclose, ih hall, List.length_cons, Nat.add_assoc, Nat.add_comm 1]

theorem findParen?_of_isQuote {c : Char} (hquote : Quoted.isQuote c = true)
    (depth index : Nat) (cs : List Char) :
    findParen? depth (ofChars index (c :: cs)) =
      ((Quoted.split? c cs).map (behind (index + 1) [])).bind (findParen? depth) := by
  obtain ⟨hascii, hne⟩ := isAscii_of_isQuote hquote
  rw [ofChars, utf8_cons_of_isAscii hascii, findParen?_cons,
    isByte_toUInt8 isByteClass_isQuote hascii, if_pos hquote, skipQuoted?_utf8 hascii hne]

theorem findParen?_ofChars (depth index : Nat) (cs : List Char) :
    findParen? (depth + 1) (ofChars index cs) =
      (Piece.spanArgs? depth cs).map (behind index [')']) := by
  have hopen : isAscii '(' = true := by decide
  have hclose : isAscii ')' = true := by decide
  fun_induction Piece.spanArgs? depth cs generalizing index with
  | case1 => exact findParen?_nil _ index
  | case2 depth c ds hquote hsplit =>
    rw [findParen?_of_isQuote hquote, hsplit]
    rfl
  | case3 depth c ds hquote run rest hsplit _ ih =>
    rw [findParen?_of_isQuote hquote, hsplit, Option.map_some, Option.bind_some]
    refine (ih _).trans ((map_behind index [')'] (c :: run) _).trans ?_).symm
    rw [byteLength_cons, utf8Size_of_isAscii (isAscii_of_isQuote hquote).1, ← Nat.add_assoc]
  | case4 depth ds hquote ih =>
    rw [ofChars, utf8_cons_of_isAscii hopen, findParen?_cons,
      isByte_toUInt8 isByteClass_isQuote hopen, if_neg hquote, if_pos rfl]
    exact (ih (index + 1)).trans (map_behind index [')'] ['('] _).symm
  | case5 ds hquote _ =>
    rw [ofChars, utf8_cons_of_isAscii hclose, findParen?_cons,
      isByte_toUInt8 isByteClass_isQuote hclose, if_neg hquote, if_neg (by decide), if_pos rfl,
      if_pos rfl, Option.map_some]
    simp only [behind, ofChars, List.cons_append, List.nil_append, utf8_cons_of_isAscii hclose,
      byteLength_nil, Nat.add_zero]
  | case6 ds depth hquote _ ih =>
    rw [ofChars, utf8_cons_of_isAscii hclose, findParen?_cons,
      isByte_toUInt8 isByteClass_isQuote hclose, if_neg hquote, if_neg (by decide), if_pos rfl,
      Nat.add_sub_cancel, if_neg (Nat.succ_ne_zero depth)]
    exact (ih (index + 1)).trans (map_behind index [')'] [')'] _).symm
  | case7 depth c ds hquote hc hc' ih =>
    have hblock : ∀ b ∈ String.utf8EncodeChar c,
        isByte Quoted.isQuote b = false ∧ b ≠ '('.toUInt8 ∧ b ≠ ')'.toUInt8 := by
      intro b hb
      refine ⟨(isByte_of_mem isByteClass_isQuote hb).trans (Bool.eq_false_iff.2 hquote), ?_, ?_⟩
      · rintro rfl
        exact hc (eq_of_toUInt8_mem hopen hb)
      · rintro rfl
        exact hc' (eq_of_toUInt8_mem hclose hb)
    rw [ofChars, utf8_cons, findParen?_append _ hblock, String.length_utf8EncodeChar]
    exact (ih (index + c.utf8Size)).trans (map_behind index [')'] [c] _).symm

theorem findParen?_opening (index : Nat) (cs : List Char) :
    findParen? 0 (ofChars index ('(' :: cs)) =
      (Piece.spanArgs? 0 cs).map (behind (index + 1) [')']) := by
  have hascii : isAscii '(' = true := by decide
  rw [ofChars, utf8_cons_of_isAscii hascii, findParen?_cons,
    isByte_toUInt8 isByteClass_isQuote hascii, if_neg (by decide), if_pos rfl]
  exact findParen?_ofChars 0 (index + 1) cs

theorem map_ofUInt8_utf8 {cs : List Char} (h : ∀ c ∈ cs, isAscii c = true) :
    (utf8 cs).map Char.ofUInt8 = cs := by
  induction cs with
  | nil => rfl
  | cons c cs ih =>
    obtain ⟨hc, hall⟩ := List.forall_mem_cons.1 h
    have hchar : Char.ofUInt8 c.toUInt8 = c := by
      rw [← Char.toNat_inj, toNat_ofUInt8, toNat_toUInt8_of_isAscii hc]
    rw [utf8_cons_of_isAscii hc, List.map_cons, hchar, ih hall]

end Place

end Templating
