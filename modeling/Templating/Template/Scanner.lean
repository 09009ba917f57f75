import Templating.Template.Directive
import Templating.Template.Markers
import Templating.Text.Blank
import Templating.Text.Quoted
import Templating.Text.Utf8

/-!
# Scanning a template

The scanner walks over the bytes of a template and notes, by their offsets, the tokens it finds. It
keeps the offset where the text that is still pending begins (`sectionStart`); a token ends that
text, and the text after the token begins behind it.

A `Place` is an offset together with the bytes from there on, and places move only `forward`. The
scanners of quoted runs, of closing delimiters and of closing parentheses go byte by byte, also
through the inside of characters, and a backslash takes them two bytes on, whatever stands there.

An `@` is looked at first, then the escaping delimiters, then the raw ones; an empty opening
delimiter never matches, an empty closing one matches at once.
-/

namespace Templating

structure Span where
  start : Nat
  stop : Nat
deriving DecidableEq, Repr

/-- A token by its offsets, and those of what it holds. -/
inductive Lexed where
  | text (span : Span)
  | interpolation (escape : Bool) (content span : Span)
  | directive (kind : Directive) (args : Option Span) (span : Span)
deriving DecidableEq, Repr

def Lexed.span : Lexed → Span
  | .text span => span
  | .interpolation _ _ span => span
  | .directive _ _ span => span

inductive TokenFault where
  | unclosedArgs
  | unclosedInterpolation
deriving DecidableEq, Repr

structure TokenError where
  fault : TokenFault
  start : Nat
  stop : Nat
deriving DecidableEq, Repr

def isNameChar (c : Char) : Bool :=
  c.isAlpha || c == '_'

/-- An offset in a text and the bytes of the text from there on. -/
structure Place where
  index : Nat
  rest : List UInt8
deriving DecidableEq, Repr

namespace Place

def forward (p : Place) (n : Nat) : Place :=
  ⟨p.index + n, p.rest.drop n⟩

def finish (p : Place) : Place :=
  p.forward p.rest.length

def isByte (q : Char → Bool) (b : UInt8) : Bool :=
  q (Char.ofUInt8 b)

def run (q : Char → Bool) (p : Place) : List UInt8 :=
  p.rest.takeWhile (isByte q)

def skip (q : Char → Bool) (p : Place) : Place :=
  p.forward (p.run q).length

def startsWithChar (p : Place) (c : Char) : Bool :=
  p.rest.head? == some c.toUInt8

@[simp] theorem length_rest_forward (p : Place) (n : Nat) :
    (p.forward n).rest.length = p.rest.length - n :=
  List.length_drop

theorem length_rest_forward_lt {p : Place} {b : UInt8} {bs : List UInt8} (h : p.rest = b :: bs)
    {n : Nat} (hn : 0 < n) : (p.forward n).rest.length < p.rest.length := by
  rw [length_rest_forward, h]
  exact Nat.sub_lt (Nat.succ_pos _) hn

theorem length_rest_skip_le (q : Char → Bool) (p : Place) :
    (p.skip q).rest.length ≤ p.rest.length := by
  rw [skip, length_rest_forward]
  exact Nat.sub_le _ _

/-- The place behind the quoted run of which the opening quote was just passed. There is none when
the run never closes. -/
def skipQuoted? (quote : UInt8) (index : Nat) : List UInt8 → Option Place
  | [] => none
  | b :: bs =>
    if b = '\x5c'.toUInt8 then
      match bs with
      | [] => none
      | _ :: bs => skipQuoted? quote (index + 2) bs
    else if b = quote then some ⟨index + 1, bs⟩
    else skipQuoted? quote (index + 1) bs

theorem length_lt_of_skipQuoted? {quote : UInt8} {index : Nat} {bs : List UInt8} {next : Place}
    (h : skipQuoted? quote index bs = some next) : next.rest.length < bs.length := by
  fun_induction skipQuoted? quote index bs with
  | case1 => cases h
  | case2 => cases h
  | case3 index bs b ih => exact Nat.lt_trans (ih h) (Nat.lt_add_of_pos_right Nat.zero_lt_two)
  | case4 =>
    cases h
    exact Nat.lt_succ_self _
  | case5 index b bs _ _ ih => exact Nat.lt_succ_of_lt (ih h)

def findClosing? (closing : List UInt8) (p : Place) : Option Place :=
  match h : p.rest with
  | [] => none
  | b :: bs =>
    have := length_rest_forward_lt h Nat.zero_lt_one
    if isByte Text.Quoted.isQuote b then
      match hq : skipQuoted? b (p.index + 1) bs with
      | none => none
      | some next =>
        have : next.rest.length < p.rest.length :=
          h ▸ Nat.lt_succ_of_lt (length_lt_of_skipQuoted? hq)
        findClosing? closing next
    else if closing.isPrefixOf p.rest then some p
    else findClosing? closing (p.forward 1)
termination_by p.rest.length

/-- The place of the parenthesis that closes the first of those opened from the place on, where
`depth` are open already. Quoted runs are passed over. -/
def findParen? (depth : Nat) (p : Place) : Option Place :=
  match h : p.rest with
  | [] => none
  | b :: bs =>
    have := length_rest_forward_lt h Nat.zero_lt_one
    if isByte Text.Quoted.isQuote b then
      match hq : skipQuoted? b (p.index + 1) bs with
      | none => none
      | some next =>
        have : next.rest.length < p.rest.length :=
          h ▸ Nat.lt_succ_of_lt (length_lt_of_skipQuoted? hq)
        findParen? depth next
    else if b = '('.toUInt8 then findParen? (depth + 1) (p.forward 1)
    else if b = ')'.toUInt8 then
      if depth - 1 = 0 then some p else findParen? (depth - 1) (p.forward 1)
    else findParen? depth (p.forward 1)
termination_by p.rest.length

theorem length_le_of_findClosing? {closing : List UInt8} {p next : Place}
    (h : findClosing? closing p = some next) : next.rest.length ≤ p.rest.length := by
  fun_induction findClosing? closing p with
  | case1 => cases h
  | case2 => cases h
  | case3 p b rest hrest hone _ middle hq hmiddle ih =>
    exact Nat.le_trans (ih h) (Nat.le_of_lt hmiddle)
  | case4 =>
    cases h
    exact Nat.le_refl _
  | case5 p b rest hrest hone _ _ ih => exact Nat.le_trans (ih h) (Nat.le_of_lt hone)

theorem length_le_of_findParen? {depth : Nat} {p next : Place}
    (h : findParen? depth p = some next) : next.rest.length ≤ p.rest.length := by
  fun_induction findParen? depth p with
  | case1 => cases h
  | case2 => cases h
  | case3 depth p b rest hrest hone _ middle hq hmiddle ih =>
    exact Nat.le_trans (ih h) (Nat.le_of_lt hmiddle)
  | case4 depth p rest hrest hone _ ih => exact Nat.le_trans (ih h) (Nat.le_of_lt hone)
  | case5 =>
    cases h
    exact Nat.le_refl _
  | case6 depth p _ rest hrest hone _ _ ih => exact Nat.le_trans (ih h) (Nat.le_of_lt hone)
  | case7 depth p b rest hrest hone _ _ _ ih => exact Nat.le_trans (ih h) (Nat.le_of_lt hone)

end Place

/-- The arguments of a directive, and the place behind them. They are not closed when they run to
the end for want of a parenthesis. -/
structure ArgList where
  span : Span
  after : Place
  closed : Bool

/-- The arguments of a directive whose name ends at the place `p`: what stands in parentheses behind
it or, for a condition, the rest of the line, when it begins with a blank and is not blank
altogether. -/
def ArgList.scan? (kind : Directive) (p : Place) : Option ArgList :=
  let opening := p.skip Text.isInlineBlank
  if opening.startsWithChar '(' then
    let start := opening.index + 1
    match opening.findParen? 0 with
    | some close => some ⟨⟨start, close.index⟩, close.forward 1, true⟩
    | none => some ⟨⟨start, opening.finish.index⟩, opening.finish, false⟩
  else if kind ≠ .openIf ∨ opening.index = p.index then none
  else if (p.run (· != '\n')).all (Place.isByte Text.isAsciiBlank) then none
  else
    let stop := p.skip (· != '\n')
    some ⟨⟨p.index, stop.index⟩, stop, true⟩

theorem ArgList.length_after_le {kind : Directive} {p : Place} {args : ArgList}
    (h : ArgList.scan? kind p = some args) : args.after.rest.length ≤ p.rest.length := by
  have hskip : ∀ q, (p.skip q).rest.length ≤ p.rest.length := fun q => p.length_rest_skip_le q
  unfold ArgList.scan? at h
  simp only at h
  split at h
  · split at h
    · rename_i close hclose
      cases h
      rw [Place.length_rest_forward]
      exact Nat.le_trans (Nat.sub_le _ _)
        (Nat.le_trans (Place.length_le_of_findParen? hclose) (hskip _))
    · cases h
      rw [Place.finish, Place.length_rest_forward, Nat.sub_self]
      exact Nat.zero_le _
  · split at h
    · cases h
    · split at h
      · cases h
      · cases h
        exact hskip _

structure DelimiterBytes where
  opening : List UInt8
  closing : List UInt8

def Delimiters.bytes (d : Delimiters) : DelimiterBytes :=
  ⟨Text.utf8 d.opening, Text.utf8 d.closing⟩

/-- A template being scanned: the place, the offset where the pending text begins, and the tokens
and mistakes that were noted, the latest first. -/
structure Scanner extends Place where
  sectionStart : Nat
  tokens : List Lexed
  errors : List TokenError

namespace Scanner

open Place

def flushed (s : Scanner) : List Lexed :=
  if s.sectionStart < s.index then .text ⟨s.sectionStart, s.index⟩ :: s.tokens else s.tokens

def moveTo (s : Scanner) (p : Place) : Scanner :=
  { s with toPlace := p }

def push (s : Scanner) (t : Lexed) (after : Place) : Scanner :=
  { s with toPlace := after, sectionStart := after.index, tokens := t :: s.flushed }

def fail (s : Scanner) (fault : TokenFault) : Scanner :=
  { s with errors := ⟨fault, s.index, s.finish.index⟩ :: s.errors }

def takeInterpolation (s : Scanner) (escape : Bool) (d : DelimiterBytes) : Scanner :=
  let body := s.forward d.opening.length
  match body.findClosing? d.closing with
  | some close =>
    let after := close.forward d.closing.length
    s.push (.interpolation escape ⟨body.index, close.index⟩ ⟨s.index, after.index⟩) after
  | none => (s.fail .unclosedInterpolation).moveTo s.finish

/-- Takes in what begins with an `@`: a second one ends the text before it and begins another, a
directive is a token when it has the arguments it takes, and anything else is text. -/
def takeAt (s : Scanner) : Scanner :=
  let name := s.forward 1
  if name.startsWithChar '@' then
    { s with
      toPlace := (name.forward 1).skip isNameChar
      sectionStart := name.index
      tokens := s.flushed }
  else
    let stop := name.skip isNameChar
    match Directive.ofWord? (String.ofList ((name.run isNameChar).map Char.ofUInt8)) with
    | none => s.moveTo stop
    | some kind =>
      if kind.takesArgs then
        match ArgList.scan? kind stop with
        | none => s.moveTo stop
        | some args =>
          let noted := if args.closed then s else s.fail .unclosedArgs
          noted.push (.directive kind (some args.span) ⟨s.index, args.after.index⟩) args.after
      else s.push (.directive kind none ⟨s.index, stop.index⟩) stop

def opens (s : Scanner) (opening : List UInt8) : Bool :=
  !opening.isEmpty && opening.isPrefixOf s.rest

def step (raw escaped : DelimiterBytes) (s : Scanner) : Scanner :=
  if s.startsWithChar '@' then s.takeAt
  else if s.opens escaped.opening then s.takeInterpolation true escaped
  else if s.opens raw.opening then s.takeInterpolation false raw
  else s.moveTo (s.forward 1)

theorem length_rest_takeInterpolation_lt {s : Scanner} {escape : Bool} {d : DelimiterBytes}
    (hs : 0 < s.rest.length) (hopens : s.opens d.opening = true) :
    (s.takeInterpolation escape d).rest.length < s.rest.length := by
  have hopening : 0 < d.opening.length := by
    cases hd : d.opening with
    | nil => simp [opens, hd] at hopens
    | cons => exact Nat.succ_pos _
  unfold takeInterpolation
  simp only
  split
  · rename_i close hclose
    have hle := length_le_of_findClosing? hclose
    rw [length_rest_forward] at hle
    simp only [push, length_rest_forward]
    omega
  · simp only [moveTo, finish, length_rest_forward]
    omega

theorem length_rest_takeAt_lt {s : Scanner} (hs : 0 < s.rest.length) :
    s.takeAt.rest.length < s.rest.length := by
  have hname : (s.forward 1).rest.length < s.rest.length := by
    rw [length_rest_forward]
    exact Nat.sub_lt hs Nat.zero_lt_one
  have hskip : ((s.forward 1).skip isNameChar).rest.length < s.rest.length :=
    Nat.lt_of_le_of_lt (length_rest_skip_le _ _) hname
  unfold takeAt
  simp only
  split
  · refine Nat.lt_of_le_of_lt (length_rest_skip_le _ _) (Nat.lt_of_le_of_lt ?_ hname)
    rw [length_rest_forward]
    exact Nat.sub_le _ _
  · split
    · exact hskip
    · split
      · split
        · exact hskip
        · rename_i args hargs
          exact Nat.lt_of_le_of_lt (ArgList.length_after_le hargs) hskip
      · exact hskip

theorem length_rest_step_lt {s : Scanner} (raw escaped : DelimiterBytes)
    (hs : 0 < s.rest.length) : (s.step raw escaped).rest.length < s.rest.length := by
  unfold step
  split
  · exact length_rest_takeAt_lt hs
  · split
    · rename_i hopens
      exact length_rest_takeInterpolation_lt hs hopens
    · split
      · rename_i hopens
        exact length_rest_takeInterpolation_lt hs hopens
      · simp only [moveTo, length_rest_forward]
        omega

def run (raw escaped : DelimiterBytes) (s : Scanner) : Scanner :=
  if h : 0 < s.rest.length then
    have := length_rest_step_lt raw escaped h
    run raw escaped (s.step raw escaped)
  else s
termination_by s.rest.length

def start (cs : List Char) : Scanner :=
  { index := 0, rest := Text.utf8 cs, sectionStart := 0, tokens := [], errors := [] }

end Scanner

structure Scanned where
  tokens : List Lexed
  errors : List TokenError

def scan (m : Markers) (cs : List Char) : Scanned :=
  let s := (Scanner.start cs).run m.raw.bytes m.escaped.bytes
  ⟨s.flushed.reverse, s.errors.reverse⟩

end Templating
