import Templating.Expr.Parser

/-!
# The grammar of expressions

`Derives level ks e` says that the kinds of tokens `ks`, all of them, are an expression of the given
level of precedence and that its tree is `e`. A chain of operators or of accessors is given by the
list of its parts, so the direction in which it associates is written down as a fold.

The grammar does not look at what follows an expression. Where a parser has to, because a name may
be a call, a constant or a variable, what may follow is a matter of the level (`continues`).
-/

namespace Templating.Expr

/-- The levels of precedence, the loosest first, and the items of an array. -/
inductive Level where
  | or
  | and
  | not
  | comparison
  | operand
  | item
deriving DecidableEq, Repr

abbrev Part := List TokenKind × Expr

namespace Part

def chained (mark : TokenKind) (parts : List Part) : List TokenKind :=
  parts.flatMap fun p => mark :: p.1

def bracketed (parts : List Part) : List TokenKind :=
  parts.flatMap fun p => .leftBracket :: p.1 ++ [.rightBracket]

def listed (trailing : Bool) : List Part → List TokenKind
  | [] => []
  | [p] => p.1 ++ if trailing then [.comma] else []
  | p :: q :: parts => p.1 ++ .comma :: listed trailing (q :: parts)

def folded (op : Connective) (first : Expr) (parts : List Part) : Expr :=
  parts.foldl (fun left p => .logical op left p.2) first

def trees (parts : List Part) : List Expr :=
  parts.map (·.2)

end Part

/-- A word that stands for itself begins the list: it is followed by neither a call nor an access,
and it names no constant. -/
def BeginsWithWord (ks : List TokenKind) : Prop :=
  ∃ word rest, ks = .ident word :: rest ∧ namedConstant? word = none ∧
    rest.head? ≠ some .leftParen ∧ rest.head? ≠ some .leftBracket

/-- The kinds `ks` are an expression of a level, and its tree is the given one. -/
inductive Derives : Level → List TokenKind → Expr → Prop where
  | or {ks e parts} (hfirst : Derives .and ks e) (hparts : ∀ p ∈ parts, Derives .and p.1 p.2) :
      Derives .or (ks ++ Part.chained .orOr parts) (Part.folded .or e parts)
  | and {ks e parts} (hfirst : Derives .not ks e) (hparts : ∀ p ∈ parts, Derives .not p.1 p.2) :
      Derives .and (ks ++ Part.chained .andAnd parts) (Part.folded .and e parts)
  | negation {ks e} (h : Derives .not ks e) : Derives .not (.bang :: ks) (.negation e)
  | positive {ks e} (h : Derives .comparison ks e) : Derives .not ks e
  | single {ks e} (h : Derives .operand ks e) : Derives .comparison ks e
  | compared {ks ls left right} (op : Comparison) (hleft : Derives .operand ks left)
      (hright : Derives .operand ls right) :
      Derives .comparison (ks ++ .comparison op :: ls) (.comparison op left right)
  | group {ks e} (h : Derives .or ks e) : Derives .operand (.leftParen :: ks ++ [.rightParen]) e
  | text (s : String) : Derives .operand [.text s] (.text s)
  | number {spelling n} (h : Number.read? spelling.toList = some n) :
      Derives .operand [.number spelling] (.literal (.number n))
  | call {args} (name : String) (h : ∀ p ∈ args, Derives .or p.1 p.2) :
      Derives .operand (.ident name :: .leftParen :: Part.listed false args ++ [.rightParen])
        (.call name (Part.trees args))
  | constant {name value} (h : namedConstant? name = some value) :
      Derives .operand [.ident name] (.literal value)
  | marked {keys} (name : String) (h : ∀ p ∈ keys, Derives .or p.1 p.2) :
      Derives .operand (.variable name :: Part.bracketed keys) (.variable name (Part.trees keys))
  | bare {name keys} (hname : namedConstant? name = none) (h : ∀ p ∈ keys, Derives .or p.1 p.2) :
      Derives .operand (.ident name :: Part.bracketed keys) (.variable name (Part.trees keys))
  | array {items} (trailing : Bool) (h : ∀ p ∈ items, Derives .item p.1 p.2) :
      Derives .operand (.leftBracket :: Part.listed trailing items ++ [.rightBracket])
        (.array (Part.trees items))
  | word {name} (h : namedConstant? name = none) : Derives .item [.ident name] (.text name)
  | whole {ks e} (h : Derives .or ks e) (hword : ¬BeginsWithWord ks) : Derives .item ks e

/-- Whether a token behind an expression of the level would be taken for a part of it. -/
def Level.continues : Level → TokenKind → Bool
  | .or, .orOr | .item, .orOr => true
  | .or, .andAnd | .item, .andAnd | .and, .andAnd => true
  | .operand, .comparison _ => false
  | _, .comparison _ => true
  | _, .leftParen | _, .leftBracket => true
  | _, _ => false

def Level.Stops (level : Level) (ks : List TokenKind) : Prop :=
  ∀ k ∈ ks.head?, level.continues k = false

def isClosing : TokenKind → Bool
  | .rightParen | .rightBracket | .comma => true
  | _ => false

theorem Part.chained_cons (mark : TokenKind) (p : Part) (parts : List Part) :
    chained mark (p :: parts) = mark :: (p.1 ++ chained mark parts) := by
  simp [chained]

theorem Part.bracketed_cons (p : Part) (parts : List Part) :
    bracketed (p :: parts) = .leftBracket :: (p.1 ++ .rightBracket :: bracketed parts) := by
  simp [bracketed]

theorem Part.listed_cons (trailing : Bool) (p : Part) (parts : List Part) :
    listed trailing (p :: parts) =
      p.1 ++ if parts = [] ∧ trailing = false then [] else .comma :: listed trailing parts := by
  cases parts with
  | nil => cases trailing <;> rfl
  | cons q parts => simp [listed]

/-- An expression begins with a token that does not end a list, and from comparisons on with one
that is not `!`. -/
theorem Derives.begins {level : Level} {ks : List TokenKind} {e : Expr} (h : Derives level ks e) :
    ∃ k rest, ks = k :: rest ∧ isClosing k = false ∧
      (level = .comparison ∨ level = .operand → k ≠ .bang) := by
  induction h with
  | or _ _ ih | and _ _ ih =>
    obtain ⟨k, rest, rfl, hk, -⟩ := ih
    exact ⟨k, _, rfl, hk, by simp⟩
  | positive _ ih | whole _ _ ih =>
    obtain ⟨k, rest, rfl, hk, -⟩ := ih
    exact ⟨k, rest, rfl, hk, by simp⟩
  | single _ ih =>
    obtain ⟨k, rest, rfl, hk, hbang⟩ := ih
    exact ⟨k, rest, rfl, hk, fun _ => hbang (.inr rfl)⟩
  | compared _ _ _ ih =>
    obtain ⟨k, rest, rfl, hk, hbang⟩ := ih
    exact ⟨k, _, rfl, hk, fun _ => hbang (.inr rfl)⟩
  | negation => exact ⟨_, _, rfl, rfl, by simp⟩
  | _ => exact ⟨_, _, rfl, rfl, fun _ => TokenKind.noConfusion⟩

theorem Derives.head_ne {level : Level} {ks : List TokenKind} {e : Expr} (h : Derives level ks e)
    {k : TokenKind} (hk : isClosing k = true) (more : List TokenKind) :
    (ks ++ more).head? ≠ some k := by
  obtain ⟨k', rest, rfl, hk', -⟩ := h.begins
  intro hhead
  cases hhead
  rw [hk] at hk'
  cases hk'

end Templating.Expr
