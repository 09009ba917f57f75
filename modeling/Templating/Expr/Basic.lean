import Templating.Value.Compare

/-!
# Expressions

The tree that a template evaluates: literals, lists, variables with accessors, calls, and the three
kinds of condition. Text that is no expression is kept as `invalid`, so that a template with a
mistake in it still has a tree.
-/

namespace Templating

inductive Connective where
  | and
  | or
deriving DecidableEq, Repr

inductive Expr where
  | literal (value : Value)
  | array (items : List Expr)
  | variable (name : String) (accessors : List Expr)
  | call (name : String) (args : List Expr)
  | negation (operand : Expr)
  | logical (op : Connective) (left right : Expr)
  | comparison (op : Comparison) (left right : Expr)
  | invalid (source : String)
deriving Inhabited

namespace Expr

def text (s : String) : Expr := .literal (.text s)

def textLiteral? : Expr → Option String
  | .literal (.text s) => some s
  | _ => none

/-- A name that is known without evaluation: a text literal or a bare variable. -/
def staticName? : Expr → Option String
  | .literal (.text s) => some s
  | .variable name [] => some name
  | _ => none

end Expr

inductive ExprFault where
  | expectedVariableName
  | unterminatedText
  | unexpectedCharacter
  | expectedRightParen
  | expectedRightBracket
  | expectedCommaOrBracket
  | expectedComma
  | invalidNumber
  | unexpectedToken
  | unexpectedEnd
  | trailingInput
  | expectedAs
  | expectedLoopVariable
deriving DecidableEq, Repr

def ExprFault.message : ExprFault → String
  | .expectedVariableName => "expected variable name after \x60$\x60"
  | .unterminatedText => "unterminated string literal"
  | .unexpectedCharacter => "unexpected character"
  | .expectedRightParen => "expected \x60)\x60"
  | .expectedRightBracket => "expected \x60]\x60"
  | .expectedCommaOrBracket => "expected \x60,\x60 or \x60]\x60"
  | .expectedComma => "expected \x60,\x60"
  | .invalidNumber => "invalid number"
  | .unexpectedToken => "unexpected token"
  | .unexpectedEnd => "unexpected end of expression"
  | .trailingInput => "unexpected trailing input"
  | .expectedAs => "expected \x60as\x60"
  | .expectedLoopVariable => "expected loop variable"

structure ExprError where
  fault : ExprFault
  offset : Nat
deriving DecidableEq, Repr

def ExprError.message (e : ExprError) : String :=
  e.fault.message ++ " at offset " ++ toString e.offset

end Templating
