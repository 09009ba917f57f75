import Mathlib
import Templating.Proofs.Expr.Exact
import Templating.Proofs.Expr.Spelling

/-!
# The tokens of an expression beside each other

No token of an expression joins the next one. No two words stand beside each other in it, and no
operator that an equals sign would lengthen stands before one that begins with that sign
(`Derives.fitting`). What is derivable is therefore read as its tree, however it is spaced
(`parse?_spaced`).
-/

namespace Templating.Expr

namespace TokenKind

def isWord : TokenKind → Bool
  | .variable _ | .ident _ | .number _ => true
  | _ => false

/-- Operators that an equals sign would lengthen. -/
def takesEquals : TokenKind → Bool
  | .bang | .comparison _ => true
  | _ => false

def beginsWithEquals : TokenKind → Bool
  | .comparison _ | .fatArrow => true
  | _ => false

/-- The second token is no word behind a word, and begins with no equals sign where it would lengthen
the first. -/
def Fits (k l : TokenKind) : Prop :=
  (k.isWord && l.isWord) = false ∧ (k.takesEquals && l.beginsWithEquals) = false

theorem head_isIdentifier {name : String} (hname : isIdentifier name = true) :
    ∀ c ∈ name.toList.head?, isIdentStart c = true := by
  unfold isIdentifier at hname
  intro c hc
  split at hname
  · cases hname
  · rename_i d ds hds
    obtain rfl : d = c := by simpa [hds] using hc
    exact (Bool.and_eq_true_iff.1 hname).1

theorem head_isIntegerText {spelling : String} (hspelling : isIntegerText spelling = true) :
    ∀ c ∈ spelling.toList.head?, c ≠ '=' := by
  intro c hc
  unfold isIntegerText at hspelling
  split at hspelling
  · cases hspelling
  · rename_i d ds hds
    obtain rfl : d = c := by simpa [hds] using hc
    rintro rfl
    simp at hspelling

theorem Fits.separate {k l : TokenKind} (h : k.Fits l) (hl : l.isSpellable = true) :
    Separate k l := by
  obtain ⟨hword, hequals⟩ := h
  intro c hc
  have hoperator (htakes : k.takesEquals = true) : c ≠ '=' := by
    rw [htakes, Bool.true_and] at hequals
    cases l with
    | ident name => exact ne_of_class rfl (head_isIdentifier hl c hc)
    | number spelling => exact head_isIntegerText hl c hc
    | comparison | fatArrow => cases hequals
    | _ =>
      obtain rfl := Option.some.inj hc
      decide
  have hname (hisWord : k.isWord = true) : isIdentChar c = false ∧ c ≠ '.' := by
    rw [hisWord, Bool.true_and] at hword
    cases l with
    | ident | number | «variable» => cases hword
    | comparison op => cases op <;> obtain rfl := Option.some.inj hc <;> decide
    | _ =>
      obtain rfl := Option.some.inj hc
      decide
  cases k with
  | «variable» | ident => exact (hname rfl).1
  | number => simpa [joins] using hname rfl
  | bang | comparison => simpa [joins] using hoperator rfl
  | _ => rfl

end TokenKind

/-- Tokens of which each fits the one before it. The first begins with no equals sign, and none would
lengthen the last. -/
structure Fitting (ks : List TokenKind) : Prop where
  ne_nil : ks ≠ []
  chain : ks.IsChain TokenKind.Fits
  head : ∀ k ∈ ks.head?, k.beginsWithEquals = false
  last : ∀ k ∈ ks.getLast?, k.takesEquals = false

namespace Fitting

variable {ks ls : List TokenKind} {m : TokenKind}

theorem single (hhead : m.beginsWithEquals = false) (hlast : m.takesEquals = false) :
    Fitting [m] where
  ne_nil := List.cons_ne_nil _ _
  chain := .singleton m
  head := by simpa using hhead
  last := by simpa using hlast

theorem opened (h : Fitting ks) (hword : m.isWord = false) (hhead : m.beginsWithEquals = false) :
    Fitting (m :: ks) where
  ne_nil := List.cons_ne_nil _ _
  chain := List.isChain_cons.2 ⟨fun k hk => by simp [TokenKind.Fits, hword, h.head k hk], h.chain⟩
  head := by simpa using hhead
  last := by
    rw [List.getLast?_cons_of_ne_nil h.ne_nil]
    exact h.last

theorem closed (h : Fitting ks) (hword : m.isWord = false) (hlast : m.takesEquals = false) :
    Fitting (ks ++ [m]) where
  ne_nil := by simp
  chain := by
    refine List.isChain_append.2 ⟨h.chain, .singleton m, fun k hk l hl => ?_⟩
    obtain rfl : m = l := by simpa using hl
    simp [TokenKind.Fits, hword, h.last k hk]
  head := by
    rw [List.head?_append_of_ne_nil _ h.ne_nil]
    exact h.head
  last := by simpa using hlast

theorem joined (h : Fitting ks) (hword : m.isWord = false) (h' : Fitting ls) :
    Fitting (ks ++ m :: ls) where
  ne_nil := by simp
  chain := by
    refine List.isChain_append.2 ⟨h.chain, ?_, fun k hk l hl => ?_⟩
    · exact List.isChain_cons.2 ⟨fun k hk => by simp [TokenKind.Fits, hword, h'.head k hk], h'.chain⟩
    · obtain rfl : m = l := by simpa using hl
      simp [TokenKind.Fits, hword, h.last k hk]
  head := by
    rw [List.head?_append_of_ne_nil _ h.ne_nil]
    exact h.head
  last := by
    rw [List.getLast?_append_of_ne_nil _ (List.cons_ne_nil _ _),
      List.getLast?_cons_of_ne_nil h'.ne_nil]
    exact h'.last

variable {parts : List Part}

theorem chained (h : Fitting ks) (hword : m.isWord = false) (hparts : ∀ p ∈ parts, Fitting p.1) :
    Fitting (ks ++ Part.chained m parts) := by
  induction parts generalizing ks with
  | nil => simpa [Part.chained] using h
  | cons p parts ih =>
    obtain ⟨hp, hall⟩ := List.forall_mem_cons.1 hparts
    rw [Part.chained_cons]
    exact h.joined hword (ih hp hall)

theorem bracketed (h : Fitting ks) (hparts : ∀ p ∈ parts, Fitting p.1) :
    Fitting (ks ++ Part.bracketed parts) := by
  induction parts generalizing ks with
  | nil => simpa [Part.bracketed] using h
  | cons p parts ih =>
    obtain ⟨hp, hall⟩ := List.forall_mem_cons.1 hparts
    have hfirst : Fitting (ks ++ .leftBracket :: (p.1 ++ [.rightBracket])) :=
      h.joined rfl (hp.closed rfl rfl)
    have hrest := ih hfirst hall
    rw [Part.bracketed_cons]
    simpa using hrest

theorem listed (trailing : Bool) (hparts : ∀ p ∈ parts, Fitting p.1) (hword : m.isWord = false)
    (hhead : m.beginsWithEquals = false) (hlast : m.takesEquals = false) :
    Fitting (Part.listed trailing parts ++ [m]) := by
  induction parts with
  | nil => exact single hhead hlast
  | cons p parts ih =>
    obtain ⟨hp, hall⟩ := List.forall_mem_cons.1 hparts
    rw [Part.listed_cons, List.append_assoc]
    split
    · exact hp.closed hword hlast
    · exact hp.joined rfl (ih hall)

end Fitting

theorem Derives.fitting {level : Level} {ks : List TokenKind} {e : Expr} (h : Derives level ks e) :
    Fitting ks := by
  induction h with
  | or _ _ ih ihparts => exact ih.chained rfl ihparts
  | and _ _ ih ihparts => exact ih.chained rfl ihparts
  | negation _ ih => exact ih.opened rfl rfl
  | positive _ ih => exact ih
  | single _ ih => exact ih
  | compared op _ _ ihleft ihright => exact ihleft.joined rfl ihright
  | group _ ih => exact (ih.closed rfl rfl).opened rfl rfl
  | text | number | constant | word => exact .single rfl rfl
  | @call args name _ ih =>
    exact (Fitting.single (m := .ident name) rfl rfl).joined rfl (.listed false ih rfl rfl rfl)
  | @marked keys name _ ih => exact (Fitting.single (m := .variable name) rfl rfl).bracketed ih
  | @bare name keys _ _ ih => exact (Fitting.single (m := .ident name) rfl rfl).bracketed ih
  | array trailing _ ih => exact (Fitting.listed trailing ih rfl rfl rfl).opened rfl rfl
  | whole _ _ ih => exact ih

/-- The tokens of an expression, written with or without blanks between them, are read as its tree. -/
theorem parse?_spaced {ks : List TokenKind} {e : Expr} (h : Derives .or ks e)
    (hks : ∀ k ∈ ks, k.isSpellable = true) {gap : Nat → List Char}
    (hgap : ∀ i, ∀ c ∈ gap i, isGap c = true) :
    parse? (String.ofList (spaced gap ks)) = .ok e := by
  have hseparate : ks.IsChain Separate :=
    h.fitting.chain.imp_of_mem_imp fun k l _ hl hfits => hfits.separate (hks l hl)
  obtain ⟨ts, hts, hkinds⟩ := exists_tokensFrom_spaced hgap hks hseparate 0
  refine parse?_eq_ok_iff.2 ⟨ts, ?_, hkinds ▸ h⟩
  rw [tokens, String.toList_ofList, hts]

end Templating.Expr
