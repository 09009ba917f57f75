/-!
# Byte measure of a text

Offsets, lengths and columns of a template are counted in bytes of UTF-8, while the scanners walk
over characters. `byteLength` is the bridge: it is additive over `++`, so the offset of what is left
of a text is the length of the text minus the length of the rest, and no scanner does index
arithmetic. `slice` cuts a text at two byte offsets.
-/

namespace Templating.Text

def byteLength : List Char → Nat
  | [] => 0
  | c :: cs => c.utf8Size + byteLength cs

@[simp] theorem byteLength_nil : byteLength [] = 0 := rfl

@[simp] theorem byteLength_cons (c : Char) (cs : List Char) :
    byteLength (c :: cs) = c.utf8Size + byteLength cs := rfl

@[simp] theorem byteLength_append (cs ds : List Char) :
    byteLength (cs ++ ds) = byteLength cs + byteLength ds := by
  induction cs with
  | nil => simp
  | cons c cs ih => simp [ih, Nat.add_assoc]

theorem length_le_byteLength (cs : List Char) : cs.length ≤ byteLength cs := by
  induction cs with
  | nil => simp
  | cons c cs ih =>
    have := c.utf8Size_pos
    simp only [List.length_cons, byteLength_cons]
    omega

theorem byteLength_eq_zero_iff {cs : List Char} : byteLength cs = 0 ↔ cs = [] := by
  constructor
  · intro h
    have := length_le_byteLength cs
    exact List.eq_nil_of_length_eq_zero (by omega)
  · rintro rfl
    rfl

/-- What is left of `cs` after its first `n` bytes. A cut inside a character takes the whole
character away. -/
def dropBytes : Nat → List Char → List Char
  | 0, cs => cs
  | _ + 1, [] => []
  | n + 1, c :: cs => dropBytes (n + 1 - c.utf8Size) cs

def takeBytes : Nat → List Char → List Char
  | 0, _ => []
  | _ + 1, [] => []
  | n + 1, c :: cs => c :: takeBytes (n + 1 - c.utf8Size) cs

@[simp] theorem dropBytes_zero (cs : List Char) : dropBytes 0 cs = cs := by
  cases cs <;> rfl

@[simp] theorem takeBytes_zero (cs : List Char) : takeBytes 0 cs = [] := by
  cases cs <;> rfl

@[simp] theorem dropBytes_byteLength_append (cs ds : List Char) :
    dropBytes (byteLength cs) (cs ++ ds) = ds := by
  induction cs with
  | nil => simp
  | cons c cs ih =>
    have := c.utf8Size_pos
    obtain ⟨n, hn⟩ : ∃ n, c.utf8Size + byteLength cs = n + 1 :=
      ⟨_, (Nat.succ_pred_eq_of_pos (by omega)).symm⟩
    have hsub : n + 1 - c.utf8Size = byteLength cs := by omega
    rw [List.cons_append, byteLength_cons, hn, dropBytes, hsub, ih]

@[simp] theorem takeBytes_byteLength_append (cs ds : List Char) :
    takeBytes (byteLength cs) (cs ++ ds) = cs := by
  induction cs with
  | nil => simp
  | cons c cs ih =>
    have := c.utf8Size_pos
    obtain ⟨n, hn⟩ : ∃ n, c.utf8Size + byteLength cs = n + 1 :=
      ⟨_, (Nat.succ_pred_eq_of_pos (by omega)).symm⟩
    have hsub : n + 1 - c.utf8Size = byteLength cs := by omega
    rw [List.cons_append, byteLength_cons, hn, takeBytes, hsub, ih]

def slice (cs : List Char) (start stop : Nat) : List Char :=
  takeBytes (stop - start) (dropBytes start cs)

/-- A slice between two character boundaries is the text between them. -/
theorem slice_append (before middle after : List Char) :
    slice (before ++ middle ++ after) (byteLength before)
      (byteLength before + byteLength middle) = middle := by
  rw [slice, List.append_assoc, dropBytes_byteLength_append, Nat.add_sub_cancel_left,
    takeBytes_byteLength_append]

end Templating.Text
