import Templating.Expr.Token
import Templating.Text.Blank

/-!
# Parsing expressions

A parser of one function per level of precedence, from `||` down to operands. Every function takes
tokens off the front of a list and leaves a shorter rest, so the recursion ends; the chains of `||`
and `&&` are continued from what is left of the list after their left side.

Three readings of a text are built on it: one expression, an argument list, and the header of a
loop. A fault carries the offset of the token at which it was noticed, or the length of the text
when the tokens ran out.
-/

namespace Templating.Expr

def namedConstant? (name : String) : Option Value :=
  let lowered := name.toLower
  if lowered = "true" then some (.bool true)
  else if lowered = "false" then some (.bool false)
  else if lowered = "null" then some .null
  else if name = "PHP_EOL" then some (.text "\n")
  else if name = "PHP_INT_MAX" then some (.int Number.maxInt64)
  else none

def nextOffset (length : Nat) : List Token → Nat
  | [] => length
  | t :: _ => t.start

/-- What a parser gives for the tokens `ts`: an error, or a value and a shorter rest. -/
abbrev Parsed (ts : List Token) (α : Type) :=
  Except ExprError (Consumed ts α)

def faultAt {α : Type} (length : Nat) (ts : List Token) (fault : ExprFault) : Except ExprError α :=
  .error ⟨fault, nextOffset length ts⟩

def eat (kind : TokenKind) (ts : List Token) : Option (Consumed ts Unit) :=
  match ts with
  | [] => none
  | t :: rest => if t.kind = kind then some ⟨(), rest, Nat.lt_succ_self _⟩ else none

def expect (length : Nat) (kind : TokenKind) (fault : ExprFault) (ts : List Token) :
    Parsed ts Unit :=
  match eat kind ts with
  | some c => .ok c
  | none => faultAt length ts fault

def eatComparison (ts : List Token) : Option (Consumed ts Comparison) :=
  match ts with
  | ⟨.comparison op, _, _⟩ :: rest => some ⟨op, rest, Nat.lt_succ_self _⟩
  | _ => none

def opensGroup : List Token → Bool
  | [] => false
  | t :: _ => t.kind == .leftParen || t.kind == .leftBracket

/-- A word at the front of an array item that stands for its own text: no call or access follows it
and it names no constant. -/
def eatBareWord (ts : List Token) : Option (Consumed ts String) :=
  match ts with
  | ⟨.ident word, _, _⟩ :: rest =>
    if !opensGroup rest && (namedConstant? word).isNone then
      some ⟨word, rest, Nat.lt_succ_self _⟩
    else none
  | _ => none

mutual

def parseOr (length : Nat) (ts : List Token) : Parsed ts Expr :=
  match parseAnd length ts with
  | .error e => .error e
  | .ok left => continueOr length ts left
termination_by (ts.length, 6)
decreasing_by
  · exact .right _ (by decide)
  · exact .left _ _ left.shorter

def continueOr (length : Nat) (ts : List Token) (left : Consumed ts Expr) : Parsed ts Expr :=
  match eat .orOr left.rest with
  | none => .ok left
  | some mark =>
    match parseAnd length mark.rest with
    | .error e => .error e
    | .ok right =>
      continueOr length ts
        (left.step (mark.step right ()) (.logical .or left.value right.value))
termination_by (left.rest.length, 7)
decreasing_by
  · exact .left _ _ mark.shorter
  · exact .left _ _ (mark.step right ()).shorter

def parseAnd (length : Nat) (ts : List Token) : Parsed ts Expr :=
  match parseNot length ts with
  | .error e => .error e
  | .ok left => continueAnd length ts left
termination_by (ts.length, 4)
decreasing_by
  · exact .right _ (by decide)
  · exact .left _ _ left.shorter

def continueAnd (length : Nat) (ts : List Token) (left : Consumed ts Expr) : Parsed ts Expr :=
  match eat .andAnd left.rest with
  | none => .ok left
  | some mark =>
    match parseNot length mark.rest with
    | .error e => .error e
    | .ok right =>
      continueAnd length ts
        (left.step (mark.step right ()) (.logical .and left.value right.value))
termination_by (left.rest.length, 5)
decreasing_by
  · exact .left _ _ mark.shorter
  · exact .left _ _ (mark.step right ()).shorter

def parseNot (length : Nat) (ts : List Token) : Parsed ts Expr :=
  match eat .bang ts with
  | none => parseComparison length ts
  | some mark =>
    match parseNot length mark.rest with
    | .error e => .error e
    | .ok operand => .ok (mark.step operand (.negation operand.value))
termination_by (ts.length, 3)
decreasing_by
  · exact .right _ (by decide)
  · exact .left _ _ mark.shorter

def parseComparison (length : Nat) (ts : List Token) : Parsed ts Expr :=
  match parseOperand length ts with
  | .error e => .error e
  | .ok left =>
    match eatComparison left.rest with
    | none => .ok left
    | some op =>
      match parseOperand length op.rest with
      | .error e => .error e
      | .ok right =>
        .ok (left.step (op.step right ()) (.comparison op.value left.value right.value))
termination_by (ts.length, 2)
decreasing_by
  · exact .right _ (by decide)
  · exact .left _ _ (left.step op ()).shorter

def parseOperand (length : Nat) (ts : List Token) : Parsed ts Expr :=
  match ts with
  | [] => faultAt length [] .unexpectedEnd
  | t :: rest =>
    let head : Consumed (t :: rest) Unit := ⟨(), rest, Nat.lt_succ_self _⟩
    match t.kind with
    | .leftParen =>
      match parseOr length rest with
      | .error e => .error e
      | .ok inner =>
        match expect length .rightParen .expectedRightParen inner.rest with
        | .error e => .error e
        | .ok closing => .ok (head.step (inner.step closing ()) inner.value)
    | .leftBracket => (parseItems length (t :: rest) head).map (·.map .array)
    | .text s => .ok (head.map fun _ => .text s)
    | .number spelling =>
      match Number.read? spelling.toList with
      | some n => .ok (head.map fun _ => .literal (.number n))
      | none => .error ⟨.invalidNumber, t.start⟩
    | .variable name => (parseAccessors length (t :: rest) head).map (·.map (.variable name))
    | .ident name =>
      match eat .leftParen rest with
      | some opening =>
        (parseArgs length (t :: rest) (head.step opening ())).map (·.map (.call name))
      | none =>
        match namedConstant? name with
        | some value => .ok (head.map fun _ => .literal value)
        | none => (parseAccessors length (t :: rest) head).map (·.map (.variable name))
    | _ => .error ⟨.unexpectedToken, t.start⟩
termination_by (ts.length, 1)
decreasing_by
  · exact .left _ _ (Nat.lt_succ_self _)
  · exact .left _ _ (Nat.lt_succ_self _)
  · exact .left _ _ (Nat.lt_succ_self _)
  · exact .left _ _ (head.step opening ()).shorter
  · exact .left _ _ (Nat.lt_succ_self _)

def parseAccessors (length : Nat) (ts : List Token) (place : Consumed ts Unit) :
    Parsed ts (List Expr) :=
  match eat .leftBracket place.rest with
  | none => .ok (place.map fun _ => [])
  | some opening =>
    match parseOr length opening.rest with
    | .error e => .error e
    | .ok key =>
      match expect length .rightBracket .expectedRightBracket key.rest with
      | .error e => .error e
      | .ok closing =>
        (parseAccessors length ts (place.step (opening.step (key.step closing ()) ()) ())).map
          (·.map (key.value :: ·))
termination_by (place.rest.length, 7)
decreasing_by
  · exact .left _ _ opening.shorter
  · exact .left _ _ (opening.step (key.step closing ()) ()).shorter

def parseItem (length : Nat) (ts : List Token) : Parsed ts Expr :=
  match eatBareWord ts with
  | some word => .ok (word.map .text)
  | none => parseOr length ts
termination_by (ts.length, 7)
decreasing_by exact .right _ (by decide)

/-- The items of an array from the place after its opening bracket or one of its commas on. A comma
may stand before the closing bracket. -/
def parseItems (length : Nat) (ts : List Token) (place : Consumed ts Unit) :
    Parsed ts (List Expr) :=
  match eat .rightBracket place.rest with
  | some closing => .ok (place.step closing [])
  | none =>
    match parseItem length place.rest with
    | .error e => .error e
    | .ok item =>
      match eat .comma item.rest with
      | some comma =>
        (parseItems length ts (place.step (item.step comma ()) ())).map (·.map (item.value :: ·))
      | none =>
        match expect length .rightBracket .expectedCommaOrBracket item.rest with
        | .error e => .error e
        | .ok closing => .ok (place.step (item.step closing ()) [item.value])
termination_by (place.rest.length, 8)
decreasing_by
  · exact .right _ (by decide)
  · exact .left _ _ (item.step comma ()).shorter

def parseArgs (length : Nat) (ts : List Token) (place : Consumed ts Unit) :
    Parsed ts (List Expr) :=
  match eat .rightParen place.rest with
  | some closing => .ok (place.step closing [])
  | none => parseArgList length ts place
termination_by (place.rest.length, 9)
decreasing_by exact .right _ (by decide)

def parseArgList (length : Nat) (ts : List Token) (place : Consumed ts Unit) :
    Parsed ts (List Expr) :=
  match parseOr length place.rest with
  | .error e => .error e
  | .ok arg =>
    match eat .rightParen arg.rest with
    | some closing => .ok (place.step (arg.step closing ()) [arg.value])
    | none =>
      match expect length .comma .expectedComma arg.rest with
      | .error e => .error e
      | .ok comma =>
        (parseArgList length ts (place.step (arg.step comma ()) ())).map (·.map (arg.value :: ·))
termination_by (place.rest.length, 8)
decreasing_by
  · exact .right _ (by decide)
  · exact .left _ _ (arg.step comma ()).shorter

end

def finish {α : Type} (length : Nat) (value : α) : List Token → Except ExprError α
  | [] => .ok value
  | t :: ts => faultAt length (t :: ts) .trailingInput

def parseTopList (length : Nat) (ts : List Token) : Except ExprError (List Expr) :=
  match parseOr length ts with
  | .error e => .error e
  | .ok arg =>
    match eat .comma arg.rest with
    | none => finish length [arg.value] arg.rest
    | some comma => (parseTopList length comma.rest).map (arg.value :: ·)
termination_by ts.length
decreasing_by exact (arg.step comma ()).shorter

def parse? (source : String) : Except ExprError Expr :=
  match tokens source with
  | .error e => .error e
  | .ok ts =>
    match parseOr source.utf8ByteSize ts with
    | .error e => .error e
    | .ok e => finish source.utf8ByteSize e.value e.rest

/-- Reads a text as one expression, or keeps it, without the blanks around it, when it is none. -/
def parse (source : String) : Expr :=
  match parse? source with
  | .ok e => e
  | .error _ => .invalid (Text.trim source)

/-- Reads a text as expressions between commas; a text without tokens is an empty list. -/
def parseArguments? (source : String) : Except ExprError (List Expr) :=
  match tokens source with
  | .error e => .error e
  | .ok [] => .ok []
  | .ok (t :: ts) => parseTopList source.utf8ByteSize (t :: ts)

/-- Reads a text as an argument list, or as the one expression it then fails to be. -/
def parseArguments (source : String) : List Expr :=
  match parseArguments? source with
  | .ok args => args
  | .error _ => [parse source]

structure LoopHeader where
  source : Expr
  key : Option String
  item : String

def expectVariable (length : Nat) (ts : List Token) : Parsed ts String :=
  match ts with
  | ⟨.variable name, _, _⟩ :: rest => .ok ⟨name, rest, Nat.lt_succ_self _⟩
  | ts => faultAt length ts .expectedLoopVariable

def expectAs (length : Nat) (ts : List Token) : Parsed ts Unit :=
  match ts with
  | ⟨.ident word, start, stop⟩ :: rest =>
    if word.toLower = "as" then .ok ⟨(), rest, Nat.lt_succ_self _⟩
    else faultAt length (⟨.ident word, start, stop⟩ :: rest) .expectedAs
  | ts => faultAt length ts .expectedAs

def parseBindings (length : Nat) (source : Expr) (ts : List Token) :
    Except ExprError LoopHeader :=
  match expectVariable length ts with
  | .error e => .error e
  | .ok first =>
    match eat .fatArrow first.rest with
    | none => finish length ⟨source, none, first.value⟩ first.rest
    | some arrow =>
      match expectVariable length arrow.rest with
      | .error e => .error e
      | .ok item => finish length ⟨source, some first.value, item.value⟩ item.rest

def parseLoopHeader? (source : String) : Except ExprError LoopHeader :=
  match tokens source with
  | .error e => .error e
  | .ok ts =>
    match parseOr source.utf8ByteSize ts with
    | .error e => .error e
    | .ok e =>
      match expectAs source.utf8ByteSize e.rest with
      | .error e => .error e
      | .ok word => parseBindings source.utf8ByteSize e.value word.rest

end Templating.Expr
