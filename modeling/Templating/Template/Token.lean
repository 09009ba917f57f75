import Templating.Template.Position
import Templating.Template.Scanner

/-!
# Tokens of a template

A token is what the scanner found between two offsets, with its characters. It knows where it begins
and ends after as many bytes as they have.
-/

namespace Templating

inductive TokenKind where
  | text
  | interpolation (escape : Bool) (content : List Char)
  | directive (kind : Directive) (args : Option (List Char))
deriving DecidableEq, Repr

structure Token where
  start : Nat
  lexeme : List Char
  kind : TokenKind
deriving DecidableEq, Repr

def Span.slice (span : Span) (cs : List Char) : List Char :=
  Text.slice cs span.start span.stop

def Lexed.kind (cs : List Char) : Lexed → TokenKind
  | .text _ => .text
  | .interpolation escape content _ => .interpolation escape (content.slice cs)
  | .directive kind args _ => .directive kind (args.map (·.slice cs))

def Lexed.toToken (cs : List Char) (t : Lexed) : Token :=
  ⟨t.span.start, t.span.slice cs, t.kind cs⟩

namespace Token

def stop (t : Token) : Nat :=
  t.start + Text.byteLength t.lexeme

theorem start_lt_stop {t : Token} (h : t.lexeme ≠ []) : t.start < t.stop := by
  have hpos := Nat.pos_of_ne_zero fun hzero => h (Text.byteLength_eq_zero_iff.1 hzero)
  exact Nat.lt_add_of_pos_right hpos

def tokens (m : Markers) (cs : List Char) : List Token :=
  (scan m cs).tokens.map (Lexed.toToken cs)

def errors (m : Markers) (cs : List Char) : List TokenError :=
  (scan m cs).errors

end Token

end Templating
