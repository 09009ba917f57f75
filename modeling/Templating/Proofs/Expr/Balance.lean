import Mathlib
import Templating.Proofs.Expr.Lexing
import Templating.Proofs.Expr.Printing

/-!
# The parentheses of an expression

Outside of quoted runs no character of a token is a parenthesis, but in the tokens that are one
(`readToken_shape`). The tokens of an expression close every parenthesis that they open, and no other
(`Derives.balanced`), and when the first of them is a parenthesis, an expression in parentheses comes
first (`Derives.exists_group`).
-/

namespace Templating.Expr

open Text.Quoted

/-! ## The characters of a token -/

def isPlain (c : Char) : Bool :=
  !isQuote c && c != '(' && c != ')'

theorem isPlain_of_class {q : Char → Bool} (hq : ['\x27', '\x22', '(', ')'].any q = false)
    {c : Char} (h : q c = true) : isPlain c = true := by
  simp only [List.any_cons, List.any_nil, Bool.or_false, Bool.or_eq_false_iff] at hq
  obtain ⟨hsingle, hdouble, hleft, hright⟩ := hq
  simp [isPlain, isQuote, ne_of_class hsingle h, ne_of_class hdouble h, ne_of_class hleft h,
    ne_of_class hright h]

/-- Between the front of `cs` and `rest`, which is what is left of it, stand plain characters. -/
def Past (cs rest : List Char) : Prop :=
  ∃ front, cs = front ++ rest ∧ ∀ c ∈ front, isPlain c = true

namespace Past

variable {c : Char} {cs ds rest : List Char}

theorem refl (cs : List Char) : Past cs cs :=
  ⟨[], rfl, List.forall_mem_nil _⟩

theorem cons (hc : isPlain c = true) (h : Past cs rest) : Past (c :: cs) rest := by
  obtain ⟨front, rfl, hfront⟩ := h
  exact ⟨c :: front, rfl, List.forall_mem_cons.2 ⟨hc, hfront⟩⟩

theorem trans (h : Past cs ds) (h' : Past ds rest) : Past cs rest := by
  obtain ⟨front, rfl, hfront⟩ := h
  obtain ⟨front', rfl, hfront'⟩ := h'
  exact ⟨front ++ front', (List.append_assoc ..).symm, List.forall_mem_append.2 ⟨hfront, hfront'⟩⟩

theorem dropWhile {q : Char → Bool} (hq : ['\x27', '\x22', '(', ')'].any q = false)
    (cs : List Char) : Past cs (cs.dropWhile q) :=
  ⟨cs.takeWhile q, List.takeWhile_append_dropWhile.symm,
    fun _ hc => isPlain_of_class hq (List.mem_takeWhile_imp hc)⟩

theorem digits (cs : List Char) : Past cs (cs.dropWhile Char.isDigit) :=
  .dropWhile rfl cs

theorem identChars (cs : List Char) : Past cs (cs.dropWhile isIdentChar) :=
  .dropWhile rfl cs

theorem spanExponent (cs : List Char) : Past cs (spanExponent cs).2 := by
  have hsign (cs : List Char) : Past cs (Number.spanSign cs).2 := by
    unfold Number.spanSign
    split
    · exact .cons rfl (.refl _)
    · exact .cons rfl (.refl _)
    · exact .refl _
  cases cs with
  | nil => exact .refl _
  | cons c cs =>
    simp only [Expr.spanExponent]
    split
    · rename_i h
      have hc : isPlain c = true := by
        rcases h.1 with rfl | rfl <;> rfl
      exact .cons hc ((hsign cs).trans (.digits _))
    · exact .refl _

theorem spanNumber (cs : List Char) : Past cs (spanNumber cs).2 :=
  (Past.dropWhile rfl cs).trans (spanExponent _)

end Past

/-- The characters that a token takes: a quoted run, a parenthesis, or plain characters. -/
inductive Shape : List Char → TokenKind → Prop where
  | quoted {c run} (hc : isQuote c = true) (hsplit : split? c run = some (run, [])) (s : String) :
      Shape (c :: run) (.text s)
  | leftParen : Shape ['('] .leftParen
  | rightParen : Shape [')'] .rightParen
  | plain {front k} (hleft : k ≠ .leftParen) (hright : k ≠ .rightParen)
      (hfront : ∀ c ∈ front, isPlain c = true) : Shape front k

theorem Shape.of_past {cs rest : List Char} {k : TokenKind} (h : Past cs rest)
    (hleft : k ≠ .leftParen) (hright : k ≠ .rightParen) :
    ∃ front, cs = front ++ rest ∧ Shape front k := by
  obtain ⟨front, happend, hfront⟩ := h
  exact ⟨front, happend, .plain hleft hright hfront⟩

theorem shape_of_readSymbol? {cs rest : List Char} {k : TokenKind}
    (h : readSymbol? cs = some (k, rest)) : ∃ front, cs = front ++ rest ∧ Shape front k := by
  unfold readSymbol? at h
  split at h <;> cases h
  case h_13 => exact ⟨['('], rfl, .leftParen⟩
  case h_14 => exact ⟨[')'], rfl, .rightParen⟩
  all_goals
    refine Shape.of_past ?_ TokenKind.noConfusion TokenKind.noConfusion
    repeat first | exact .refl _ | refine .cons rfl ?_

theorem readToken_shape {c : Char} {cs : List Char} {token : Consumed (c :: cs) TokenKind}
    (h : readToken c cs = .ok token) :
    ∃ front, c :: cs = front ++ token.rest ∧ Shape front token.value := by
  obtain ⟨hquote, s, run, htext, hsplit⟩ | ⟨htext, -⟩ := readToken_ok h
  · have happend := split?_append hsplit
    have hrun : split? c run = some (run, []) := by simpa using split?_run_append hsplit []
    exact ⟨c :: run, by rw [List.cons_append, happend], htext ▸ .quoted hquote hrun s⟩
  unfold readToken at h
  split at h
  · rename_i hc
    split at h
    · split at h
      · cases h
        exact Shape.of_past (.cons (hc ▸ rfl) (.identChars _)) TokenKind.noConfusion
          TokenKind.noConfusion
      · cases h
    · cases h
  split at h
  · split at h
    · cases h
      exact absurd rfl (htext _)
    · cases h
  split at h
  · rename_i hnumber
    have hc : isPlain c = true := by
      simp only [Bool.or_eq_true, Bool.and_eq_true, beq_iff_eq] at hnumber
      rcases hnumber with hdigit | ⟨rfl | rfl, -⟩
      · exact isPlain_of_class rfl hdigit
      · rfl
      · rfl
    cases h
    exact Shape.of_past (.cons hc (.spanNumber cs)) TokenKind.noConfusion TokenKind.noConfusion
  split at h
  · rename_i hstart
    have hc : isPlain c = true := isPlain_of_class rfl hstart
    cases h
    exact Shape.of_past (.cons hc (.identChars cs)) TokenKind.noConfusion TokenKind.noConfusion
  split at h
  · rename_i hsymbol
    cases h
    exact shape_of_readSymbol? hsymbol
  · cases h
/-! ## Balance -/

/-- The number of parentheses that are open behind tokens, when `depth` are open before them. There
is none when one is closed that was not opened. -/
def openAfter? : Nat → List TokenKind → Option Nat
  | depth, [] => some depth
  | depth, .leftParen :: ks => openAfter? (depth + 1) ks
  | 0, .rightParen :: _ => none
  | depth + 1, .rightParen :: ks => openAfter? depth ks
  | depth, _ :: ks => openAfter? depth ks

theorem openAfter?_cons {k : TokenKind} (hleft : k ≠ .leftParen) (hright : k ≠ .rightParen)
    (depth : Nat) (ks : List TokenKind) : openAfter? depth (k :: ks) = openAfter? depth ks := by
  cases k <;> first | rfl | exact absurd rfl hleft | exact absurd rfl hright

theorem openAfter?_append (depth : Nat) (ks ls : List TokenKind) :
    openAfter? depth (ks ++ ls) = (openAfter? depth ks).bind fun inner => openAfter? inner ls := by
  induction ks generalizing depth with
  | nil => rfl
  | cons k ks ih =>
    cases k with
    | leftParen => exact ih (depth + 1)
    | rightParen =>
      cases depth with
      | zero => rfl
      | succ depth => exact ih depth
    | _ => exact ih depth

def Balanced (ks : List TokenKind) : Prop :=
  ∀ depth, openAfter? depth ks = some depth

namespace Balanced

variable {k m : TokenKind} {ks ls : List TokenKind} {parts : List Part}

theorem nil : Balanced [] :=
  fun _ => rfl

theorem append (h : Balanced ks) (h' : Balanced ls) : Balanced (ks ++ ls) := fun depth => by
  rw [openAfter?_append, h, Option.bind_some, h']

theorem cons (h : Balanced ks) (hleft : k ≠ .leftParen) (hright : k ≠ .rightParen) :
    Balanced (k :: ks) := fun depth => by
  rw [openAfter?_cons hleft hright, h]

theorem group (h : Balanced ks) : Balanced (.leftParen :: ks ++ [.rightParen]) := fun depth => by
  rw [List.cons_append, openAfter?, openAfter?_append, h]
  rfl

theorem chained (hparts : ∀ p ∈ parts, Balanced p.1) (hleft : m ≠ .leftParen)
    (hright : m ≠ .rightParen) : Balanced (Part.chained m parts) := by
  induction parts with
  | nil => exact nil
  | cons p parts ih =>
    obtain ⟨hp, hall⟩ := List.forall_mem_cons.1 hparts
    rw [Part.chained_cons]
    exact (hp.append (ih hall)).cons hleft hright

theorem bracketed (hparts : ∀ p ∈ parts, Balanced p.1) : Balanced (Part.bracketed parts) := by
  induction parts with
  | nil => exact nil
  | cons p parts ih =>
    obtain ⟨hp, hall⟩ := List.forall_mem_cons.1 hparts
    rw [Part.bracketed_cons]
    exact (hp.append ((ih hall).cons TokenKind.noConfusion TokenKind.noConfusion)).cons
      TokenKind.noConfusion TokenKind.noConfusion

theorem listed (hparts : ∀ p ∈ parts, Balanced p.1) (trailing : Bool) :
    Balanced (Part.listed trailing parts) := by
  induction parts with
  | nil => exact nil
  | cons p parts ih =>
    obtain ⟨hp, hall⟩ := List.forall_mem_cons.1 hparts
    rw [Part.listed_cons]
    split
    · exact hp.append nil
    · exact hp.append ((ih hall).cons TokenKind.noConfusion TokenKind.noConfusion)

end Balanced

/-- In an expression the parentheses are balanced. -/
theorem Derives.balanced {level : Level} {ks : List TokenKind} {e : Expr} (h : Derives level ks e) :
    Balanced ks := by
  induction h with
  | or _ _ hfirst hparts | and _ _ hfirst hparts =>
    exact hfirst.append (.chained hparts TokenKind.noConfusion TokenKind.noConfusion)
  | negation _ ih => exact ih.cons TokenKind.noConfusion TokenKind.noConfusion
  | positive _ ih | single _ ih | whole _ _ ih => exact ih
  | compared op _ _ hleft hright =>
    exact hleft.append (hright.cons TokenKind.noConfusion TokenKind.noConfusion)
  | group _ ih => exact ih.group
  | text | number | constant | word =>
    exact Balanced.nil.cons TokenKind.noConfusion TokenKind.noConfusion
  | call name _ ih =>
    exact (Balanced.listed ih false).group.cons TokenKind.noConfusion TokenKind.noConfusion
  | marked name _ ih | bare _ _ ih =>
    exact (Balanced.bracketed ih).cons TokenKind.noConfusion TokenKind.noConfusion
  | array trailing _ ih =>
    have hclosing : Balanced [.rightBracket] :=
      Balanced.nil.cons TokenKind.noConfusion TokenKind.noConfusion
    exact ((Balanced.listed ih trailing).append hclosing).cons TokenKind.noConfusion
      TokenKind.noConfusion

/-- What begins with a parenthesis begins with an expression in parentheses. -/
theorem Derives.exists_group {level : Level} {ks : List TokenKind} {e : Expr}
    (h : Derives level (.leftParen :: ks) e) :
    ∃ group inner after, ks = group ++ .rightParen :: after ∧ Derives .or group inner := by
  generalize hks : TokenKind.leftParen :: ks = all at h
  induction h generalizing ks with
  | or hfirst _ ih | and hfirst _ ih =>
    obtain ⟨k, front, rfl, -, -⟩ := hfirst.begins
    obtain ⟨rfl, rfl⟩ := List.cons.inj hks
    obtain ⟨group, inner, after, rfl, hgroup⟩ := ih rfl
    exact ⟨group, inner, _, List.append_assoc .., hgroup⟩
  | compared op hleft _ ih =>
    obtain ⟨k, front, rfl, -, -⟩ := hleft.begins
    obtain ⟨rfl, rfl⟩ := List.cons.inj hks
    obtain ⟨group, inner, after, rfl, hgroup⟩ := ih rfl
    exact ⟨group, inner, _, List.append_assoc .., hgroup⟩
  | positive _ ih | single _ ih | whole _ _ ih => exact ih hks
  | @group front inner h =>
    obtain ⟨-, rfl⟩ := List.cons.inj hks
    exact ⟨front, inner, [], rfl, h⟩
  | _ => cases hks

end Templating.Expr
