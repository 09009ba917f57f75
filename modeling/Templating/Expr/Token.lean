import Templating.Consumed
import Templating.Expr.Basic
import Templating.Text.Bytes
import Templating.Text.Quoted

/-!
# Tokens of expressions

`tokens` splits the text of an expression. Blanks separate tokens and are dropped; a quoted run is
one token, so what looks like an operator between quotes never splits an expression. A token keeps
the byte offsets of its first character and of the one after its last.
-/

namespace Templating.Expr

/-- The kinds of tokens. Numbers keep their spelling. -/
inductive TokenKind where
  | variable (name : String)
  | ident (name : String)
  | text (value : String)
  | number (spelling : String)
  | leftBracket
  | rightBracket
  | leftParen
  | rightParen
  | comma
  | bang
  | andAnd
  | orOr
  | fatArrow
  | comparison (op : Comparison)
deriving DecidableEq, Repr

structure Token where
  kind : TokenKind
  start : Nat
  stop : Nat
deriving DecidableEq, Repr

def isGap (c : Char) : Bool :=
  c == ' ' || c == '\t' || c == '\n' || c == '\r'

def isIdentStart (c : Char) : Bool :=
  c.isAlpha || c == '_'

def isIdentChar (c : Char) : Bool :=
  c.isAlphanum || c == '_'

def isNumberChar (c : Char) : Bool :=
  c.isDigit || c == '.'

/-- The exponent at the front of a text, when it has a digit: its characters and the rest. -/
def spanExponent : List Char → List Char × List Char
  | [] => ([], [])
  | c :: cs =>
    let (sign, ds) := Number.spanSign cs
    if (c = 'e' ∨ c = 'E') ∧ ds.head?.any Char.isDigit then
      (c :: sign ++ ds.takeWhile Char.isDigit, ds.dropWhile Char.isDigit)
    else ([], c :: cs)

def spanNumber (cs : List Char) : List Char × List Char :=
  let (exponent, rest) := spanExponent (cs.dropWhile isNumberChar)
  (cs.takeWhile isNumberChar ++ exponent, rest)

theorem length_spanExponent_le (cs : List Char) : (spanExponent cs).2.length ≤ cs.length := by
  cases cs with
  | nil => simp [spanExponent]
  | cons c cs =>
    have hsign := Number.length_spanSign_le cs
    have hdigits := (List.dropWhile_sublist Char.isDigit (l := (Number.spanSign cs).2)).length_le
    simp only [spanExponent]
    split
    · simp only [List.length_cons]
      omega
    · simp

theorem length_spanNumber_le (cs : List Char) : (spanNumber cs).2.length ≤ cs.length :=
  Nat.le_trans (length_spanExponent_le _) (List.dropWhile_sublist _).length_le

/-- The operator or punctuation mark at the front of a text; the longest one is taken. -/
def readSymbol? : List Char → Option (TokenKind × List Char)
  | '=' :: '=' :: '=' :: cs => some (.comparison .strictEq, cs)
  | '!' :: '=' :: '=' :: cs => some (.comparison .strictNe, cs)
  | '=' :: '=' :: cs => some (.comparison .eq, cs)
  | '!' :: '=' :: cs => some (.comparison .ne, cs)
  | '<' :: '=' :: cs => some (.comparison .le, cs)
  | '>' :: '=' :: cs => some (.comparison .ge, cs)
  | '=' :: '>' :: cs => some (.fatArrow, cs)
  | '&' :: '&' :: cs => some (.andAnd, cs)
  | '|' :: '|' :: cs => some (.orOr, cs)
  | '<' :: cs => some (.comparison .lt, cs)
  | '>' :: cs => some (.comparison .gt, cs)
  | '!' :: cs => some (.bang, cs)
  | '(' :: cs => some (.leftParen, cs)
  | ')' :: cs => some (.rightParen, cs)
  | '[' :: cs => some (.leftBracket, cs)
  | ']' :: cs => some (.rightBracket, cs)
  | ',' :: cs => some (.comma, cs)
  | _ => none

theorem length_lt_of_readSymbol? {cs rest : List Char} {kind : TokenKind}
    (h : readSymbol? cs = some (kind, rest)) : rest.length < cs.length := by
  unfold readSymbol? at h
  split at h <;> simp at h <;> simp [← h.2] <;> omega

def readToken (c : Char) (cs : List Char) : Except ExprFault (Consumed (c :: cs) TokenKind) :=
  if c = '$' then
    match cs with
    | d :: ds =>
      if isIdentStart d then
        .ok ⟨.variable (String.ofList ((d :: ds).takeWhile isIdentChar)),
          (d :: ds).dropWhile isIdentChar,
          Nat.lt_succ_of_le (List.dropWhile_sublist _).length_le⟩
      else .error .expectedVariableName
    | [] => .error .expectedVariableName
  else if Text.Quoted.isQuote c then
    match h : Text.Quoted.read? c cs with
    | some (text, rest) =>
      .ok ⟨.text (String.ofList text), rest, Nat.lt_succ_of_lt (Text.Quoted.length_lt_of_read? h)⟩
    | none => .error .unterminatedText
  else if c.isDigit || ((c == '-' || c == '.') && cs.head?.any Char.isDigit) then
    .ok ⟨.number (String.ofList (c :: (spanNumber cs).1)), (spanNumber cs).2,
      Nat.lt_succ_of_le (length_spanNumber_le cs)⟩
  else if isIdentStart c then
    .ok ⟨.ident (String.ofList (c :: cs.takeWhile isIdentChar)), cs.dropWhile isIdentChar,
      Nat.lt_succ_of_le (List.dropWhile_sublist _).length_le⟩
  else
    match h : readSymbol? (c :: cs) with
    | some (kind, rest) => .ok ⟨kind, rest, length_lt_of_readSymbol? h⟩
    | none => .error .unexpectedCharacter

/-- The tokens of a text that begins at the byte offset `offset`. -/
def tokensFrom (offset : Nat) : List Char → Except ExprError (List Token)
  | [] => .ok []
  | c :: cs =>
    if isGap c then tokensFrom (offset + c.utf8Size) cs
    else
      match readToken c cs with
      | .error fault => .error ⟨fault, offset⟩
      | .ok token =>
        let stop := offset + (Text.byteLength (c :: cs) - Text.byteLength token.rest)
        match tokensFrom stop token.rest with
        | .error e => .error e
        | .ok ts => .ok (⟨token.value, offset, stop⟩ :: ts)
termination_by cs => cs.length
decreasing_by
  · exact Nat.lt_succ_self _
  · exact token.shorter

def tokens (source : String) : Except ExprError (List Token) :=
  tokensFrom 0 source.toList

end Templating.Expr
