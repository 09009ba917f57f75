import Templating.Text.Bytes

/-!
# Texts as bytes

The bytes of a text in UTF-8, and what a scanner of bytes may rely on. A byte below 128 is a
character by itself, and no part of another one; the first byte of a character is never a later one;
and what begins with the bytes of a text begins with the text.
-/

namespace Templating.Text

def utf8 (cs : List Char) : List UInt8 :=
  cs.flatMap String.utf8EncodeChar

@[simp] theorem utf8_nil : utf8 [] = [] := rfl

theorem utf8_cons (c : Char) (cs : List Char) :
    utf8 (c :: cs) = String.utf8EncodeChar c ++ utf8 cs := rfl

@[simp] theorem utf8_append (cs ds : List Char) : utf8 (cs ++ ds) = utf8 cs ++ utf8 ds :=
  List.flatMap_append

@[simp] theorem length_utf8 (cs : List Char) : (utf8 cs).length = byteLength cs := by
  induction cs with
  | nil => rfl
  | cons c cs ih => rw [utf8_cons, List.length_append, String.length_utf8EncodeChar, ih,
      byteLength_cons]

def isAscii (c : Char) : Bool :=
  c.val ≤ 127

theorem utf8EncodeChar_of_isAscii {c : Char} (h : isAscii c = true) :
    String.utf8EncodeChar c = [c.toUInt8] :=
  String.utf8EncodeChar_eq_singleton (Char.utf8Size_eq_one_iff.2 (of_decide_eq_true h))

theorem utf8_cons_of_isAscii {c : Char} (h : isAscii c = true) (cs : List Char) :
    utf8 (c :: cs) = c.toUInt8 :: utf8 cs := by
  rw [utf8_cons, utf8EncodeChar_of_isAscii h]
  rfl

theorem utf8Size_of_isAscii {c : Char} (h : isAscii c = true) : c.utf8Size = 1 :=
  Char.utf8Size_eq_one_iff.2 (of_decide_eq_true h)

theorem le_of_mem_utf8EncodeChar {c : Char} (h : isAscii c = false) {b : UInt8}
    (hb : b ∈ String.utf8EncodeChar c) : 128 ≤ b.toNat := by
  have hsize : c.utf8Size ≠ 1 := fun hone => by
    rw [isAscii, decide_eq_true (Char.utf8Size_eq_one_iff.1 hone)] at h
    cases h
  have hor : ∀ x y : UInt8, 128 ≤ y.toNat → 128 ≤ (x ||| y).toNat := by
    intro x y hy
    rw [UInt8.toNat_or]
    exact Nat.le_trans hy Nat.right_le_or
  match hn : c.utf8Size, c.utf8Size_pos, c.utf8Size_le_four with
  | 1, _, _ => exact absurd hn hsize
  | 2, _, _ =>
    rw [String.utf8EncodeChar_eq_cons_cons hn] at hb
    simp only [List.mem_cons, List.not_mem_nil, or_false] at hb
    rcases hb with rfl | rfl <;> exact hor _ _ (by decide)
  | 3, _, _ =>
    rw [String.utf8EncodeChar_eq_cons_cons_cons hn] at hb
    simp only [List.mem_cons, List.not_mem_nil, or_false] at hb
    rcases hb with rfl | rfl | rfl <;> exact hor _ _ (by decide)
  | 4, _, _ =>
    rw [String.utf8EncodeChar_eq_cons_cons_cons_cons hn] at hb
    simp only [List.mem_cons, List.not_mem_nil, or_false] at hb
    rcases hb with rfl | rfl | rfl | rfl <;> exact hor _ _ (by decide)

theorem toNat_toUInt8_of_isAscii {c : Char} (h : isAscii c = true) : c.toUInt8.toNat = c.toNat := by
  have hle : c.val.toNat ≤ 127 := of_decide_eq_true h
  exact (UInt32.toNat_toUInt8 c.val).trans (Nat.mod_eq_of_lt (by omega))

theorem eq_of_toUInt8_mem {a c : Char} (ha : isAscii a = true)
    (h : a.toUInt8 ∈ String.utf8EncodeChar c) : c = a := by
  have hle : a.toNat ≤ 127 := of_decide_eq_true ha
  cases hc : isAscii c with
  | true =>
    rw [utf8EncodeChar_of_isAscii hc, List.mem_singleton] at h
    have htoNat := congrArg UInt8.toNat h
    rw [toNat_toUInt8_of_isAscii ha, toNat_toUInt8_of_isAscii hc] at htoNat
    exact Char.toNat_inj.1 htoNat.symm
  | false =>
    have hge := le_of_mem_utf8EncodeChar hc h
    rw [toNat_toUInt8_of_isAscii ha] at hge
    omega

/-- The first byte of a character, and the later ones, which are first bytes of none. -/
theorem utf8EncodeChar_eq_cons (c : Char) :
    ∃ b tail, String.utf8EncodeChar c = b :: tail ∧ b.IsUTF8FirstByte ∧
      ∀ x ∈ tail, ¬x.IsUTF8FirstByte := by
  have hbyte : ∀ i (hi : i < (String.utf8EncodeChar c).length),
      (String.utf8EncodeChar c)[i].IsUTF8FirstByte ↔ i = 0 :=
    fun _ _ => UInt8.isUTF8FirstByte_getElem_utf8EncodeChar
  cases hc : String.utf8EncodeChar c with
  | nil => exact absurd hc String.utf8EncodeChar_ne_nil
  | cons b tail =>
    simp only [hc] at hbyte
    refine ⟨b, tail, rfl, (hbyte 0 (by simp)).2 rfl, ?_⟩
    intro x hx hfirst
    obtain ⟨i, hi, rfl⟩ := List.mem_iff_getElem.1 hx
    have hzero := (hbyte (i + 1) (by simpa using hi)).1 (by simpa using hfirst)
    cases hzero

theorem utf8EncodeChar_append_inj {c d : Char} {xs ys : List UInt8}
    (h : String.utf8EncodeChar c ++ xs = String.utf8EncodeChar d ++ ys) : c = d ∧ xs = ys := by
  have hdecode : ∀ (e : Char) (zs : List UInt8),
      (String.utf8EncodeChar e ++ zs).toByteArray.utf8DecodeChar? 0 = some e := by
    intro e zs
    rw [List.toByteArray_append]
    exact ByteArray.utf8DecodeChar?_utf8EncodeChar_append
  have hc := hdecode c xs
  rw [h, hdecode d ys] at hc
  obtain rfl := Option.some.inj hc
  exact ⟨rfl, List.append_cancel_left h⟩

theorem utf8_prefix_iff {ds cs : List Char} : utf8 ds <+: utf8 cs ↔ ds <+: cs := by
  constructor
  · intro h
    induction ds generalizing cs with
    | nil => exact List.nil_prefix
    | cons d ds ih =>
      obtain ⟨rest, hrest⟩ := h
      rw [utf8_cons, List.append_assoc] at hrest
      cases cs with
      | nil =>
        rw [utf8_nil, List.append_eq_nil_iff] at hrest
        exact absurd hrest.1 String.utf8EncodeChar_ne_nil
      | cons c cs =>
        rw [utf8_cons] at hrest
        obtain ⟨rfl, htail⟩ := utf8EncodeChar_append_inj hrest
        exact List.cons_prefix_cons.2 ⟨rfl, ih ⟨rest, htail⟩⟩
  · rintro ⟨rest, rfl⟩
    exact ⟨utf8 rest, (utf8_append ds rest).symm⟩

end Templating.Text
