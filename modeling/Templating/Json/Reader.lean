import Templating.Consumed
import Templating.Json.Basic
import Templating.Number.Decimal

/-!
# Reading JSON documents

`Json.read?` reads a whole text as one document, blanks around it allowed. The readers take a value
off the front of a text and leave a shorter rest, which is why they end. Numbers stay literals and
repeated members stay repeated: what they mean is decided by whoever uses the document.
-/

namespace Templating.Json

def isGap (c : Char) : Bool :=
  c == ' ' || c == '\n' || c == '\t' || c == '\r'

def skipGap (cs : List Char) : List Char :=
  cs.dropWhile isGap

theorem length_dropWhile_le (p : Char → Bool) (cs : List Char) :
    (cs.dropWhile p).length ≤ cs.length :=
  (List.dropWhile_sublist p).length_le

theorem length_skipGap_le (cs : List Char) : (skipGap cs).length ≤ cs.length :=
  length_dropWhile_le isGap cs

def hexDigit? (c : Char) : Option Nat :=
  if '0' ≤ c ∧ c ≤ '9' then some (c.toNat - 48)
  else if 'a' ≤ c ∧ c ≤ 'f' then some (c.toNat - 87)
  else if 'A' ≤ c ∧ c ≤ 'F' then some (c.toNat - 55)
  else none

def hexUnit? (a b c d : Char) : Option Nat := do
  let a ← hexDigit? a
  let b ← hexDigit? b
  let c ← hexDigit? c
  let d ← hexDigit? d
  return 4096 * a + 256 * b + 16 * c + d

def shortEscape? : Char → Option Nat
  | '\x22' => some 0x22
  | '\x5c' => some 0x5C
  | '/' => some 0x2F
  | 'b' => some 0x08
  | 'f' => some 0x0C
  | 'n' => some 0x0A
  | 'r' => some 0x0D
  | 't' => some 0x09
  | _ => none

/-- The code points and surrogates of a string whose opening quote was just read, and what follows
its closing quote. -/
def readUnits? : List Char → Option (List Nat × List Char)
  | [] => none
  | '\x22' :: cs => some ([], cs)
  | '\x5c' :: 'u' :: a :: b :: c :: d :: cs => do
    let unit ← hexUnit? a b c d
    let (units, rest) ← readUnits? cs
    return (unit :: units, rest)
  | '\x5c' :: c :: cs => do
    let unit ← shortEscape? c
    let (units, rest) ← readUnits? cs
    return (unit :: units, rest)
  | c :: cs =>
    if c.toNat < 0x20 ∨ c = '\x5c' then none
    else do
      let (units, rest) ← readUnits? cs
      return (c.toNat :: units, rest)

theorem length_lt_of_readUnits? {cs rest : List Char} {units : List Nat}
    (h : readUnits? cs = some (units, rest)) : rest.length < cs.length := by
  fun_induction readUnits? cs generalizing units with
  | case1 => simp at h
  | case2 cs =>
    simp only [Option.some.injEq, Prod.mk.injEq] at h
    simp [h.2]
  | case3 a b c d cs ih =>
    simp only [Option.bind_eq_bind, Option.bind_eq_some_iff] at h
    obtain ⟨_, _, ⟨u, r⟩, hr, he⟩ := h
    simp only [Option.pure_def, Option.some.injEq, Prod.mk.injEq] at he
    obtain ⟨-, rfl⟩ := he
    have := ih hr
    simp only [List.length_cons]
    omega
  | case4 c cs _ ih =>
    simp only [Option.bind_eq_bind, Option.bind_eq_some_iff] at h
    obtain ⟨_, _, ⟨u, r⟩, hr, he⟩ := h
    simp only [Option.pure_def, Option.some.injEq, Prod.mk.injEq] at he
    obtain ⟨-, rfl⟩ := he
    have := ih hr
    simp only [List.length_cons]
    omega
  | case5 => simp at h
  | case6 c cs _ _ _ _ ih =>
    simp only [Option.bind_eq_bind, Option.bind_eq_some_iff] at h
    obtain ⟨⟨u, r⟩, hr, he⟩ := h
    simp only [Option.pure_def, Option.some.injEq, Prod.mk.injEq] at he
    obtain ⟨-, rfl⟩ := he
    have := ih hr
    simp only [List.length_cons]
    omega

def isHighSurrogate (n : Nat) : Bool := 0xD800 ≤ n && n < 0xDC00

def isLowSurrogate (n : Nat) : Bool := 0xDC00 ≤ n && n < 0xE000

/-- The text of code points in which every surrogate must be paired. -/
def joinUnits? : List Nat → Option (List Char)
  | [] => some []
  | [n] => if isHighSurrogate n || isLowSurrogate n then none else some [Char.ofNat n]
  | n :: m :: ns =>
    if isHighSurrogate n && isLowSurrogate m then
      (joinUnits? ns).map (Char.ofNat (0x10000 + (n - 0xD800) * 0x400 + (m - 0xDC00)) :: ·)
    else if isHighSurrogate n || isLowSurrogate n then none
    else (joinUnits? (m :: ns)).map (Char.ofNat n :: ·)

def readText? (cs : List Char) : Option (Consumed cs (Option String)) :=
  match h : readUnits? cs with
  | none => none
  | some (units, rest) =>
    some ⟨(joinUnits? units).map String.ofList, rest, length_lt_of_readUnits? h⟩

def readDigitRun? (cs : List Char) : Option (List Char × List Char) :=
  if (cs.takeWhile Char.isDigit).isEmpty then none
  else some (cs.takeWhile Char.isDigit, cs.dropWhile Char.isDigit)

/-- The integer part of a number: one zero, or digits that begin with another one. -/
def readWhole? : List Char → Option (List Char × List Char)
  | '0' :: cs => if cs.head?.any Char.isDigit then none else some (['0'], cs)
  | cs => readDigitRun? cs

def readPoint? : List Char → Option (List Char × List Char)
  | '.' :: cs => (readDigitRun? cs).map fun (ds, rest) => ('.' :: ds, rest)
  | cs => some ([], cs)

def readPower? : List Char → Option (List Char × List Char)
  | [] => some ([], [])
  | c :: cs =>
    if c = 'e' ∨ c = 'E' then
      let (sign, ds) := Number.spanSign cs
      (readDigitRun? ds).map fun (ds, rest) => (c :: sign ++ ds, rest)
    else some ([], c :: cs)

def readMinus : List Char → List Char × List Char
  | '-' :: cs => (['-'], cs)
  | cs => ([], cs)

def readNumber? (cs : List Char) : Option (List Char × List Char) := do
  let (sign, rest) := readMinus cs
  let (whole, rest) ← readWhole? rest
  let (fraction, rest) ← readPoint? rest
  let (power, rest) ← readPower? rest
  return (sign ++ whole ++ fraction ++ power, rest)

/-- A number literal, with the proof that something was read. -/
def readLiteral? (cs : List Char) : Option (Consumed cs String) :=
  match readNumber? cs with
  | none => none
  | some (literal, rest) =>
    if h : rest.length < cs.length then some ⟨String.ofList literal, rest, h⟩ else none

def named? : List (Option String × Json) → Option (List (String × Json))
  | [] => some []
  | (none, _) :: _ => none
  | (some name, value) :: members => (named? members).map ((name, value) :: ·)

def ofMembers (members : List (Option String × Json)) : Json :=
  (named? members).elim .broken .object

mutual

def readValue? (cs : List Char) : Option (Consumed cs Json) :=
  match h : skipGap cs with
  | 'n' :: 'u' :: 'l' :: 'l' :: rest => some ⟨.null, rest, by
      have := length_skipGap_le cs; simp only [h, List.length_cons] at this; omega⟩
  | 't' :: 'r' :: 'u' :: 'e' :: rest => some ⟨.bool true, rest, by
      have := length_skipGap_le cs; simp only [h, List.length_cons] at this; omega⟩
  | 'f' :: 'a' :: 'l' :: 's' :: 'e' :: rest => some ⟨.bool false, rest, by
      have := length_skipGap_le cs; simp only [h, List.length_cons] at this; omega⟩
  | '\x22' :: rest =>
    have hlen : rest.length ≤ cs.length := by
      have := length_skipGap_le cs; simp only [h, List.length_cons] at this; omega
    (readText? rest).map fun c =>
      (c.map fun text => text.elim .broken .string).weaken hlen
  | '[' :: rest =>
    have hlen : rest.length < cs.length := by
      have := length_skipGap_le cs; simp only [h, List.length_cons] at this; omega
    match h' : skipGap rest with
    | ']' :: rest' => some ⟨.array [], rest', by
        have := length_skipGap_le rest; simp only [h', List.length_cons] at this; omega⟩
    | _ => (readItems? rest).map fun c => (c.map .array).weaken (Nat.le_of_lt hlen)
  | '\x7b' :: rest =>
    have hlen : rest.length < cs.length := by
      have := length_skipGap_le cs; simp only [h, List.length_cons] at this; omega
    match h' : skipGap rest with
    | '\x7d' :: rest' => some ⟨.object [], rest', by
        have := length_skipGap_le rest; simp only [h', List.length_cons] at this; omega⟩
    | _ => (readMembers? rest).map fun c => (c.map ofMembers).weaken (Nat.le_of_lt hlen)
  | _ =>
    (readLiteral? (skipGap cs)).map fun c => (c.map .number).weaken (length_skipGap_le cs)
termination_by (cs.length, 0)

def readItems? (cs : List Char) : Option (Consumed cs (List Json)) :=
  match readValue? cs with
  | none => none
  | some ⟨item, rest, hrest⟩ =>
    match h : skipGap rest with
    | ']' :: rest' => some ⟨[item], rest', by
        have := length_skipGap_le rest; simp only [h, List.length_cons] at this; omega⟩
    | ',' :: rest' =>
      have hlen : rest'.length < cs.length := by
        have := length_skipGap_le rest; simp only [h, List.length_cons] at this; omega
      (readItems? rest').map fun c => (c.map (item :: ·)).weaken (Nat.le_of_lt hlen)
    | _ => none
termination_by (cs.length, 1)

def readMembers? (cs : List Char) : Option (Consumed cs (List (Option String × Json))) :=
  match h : skipGap cs with
  | '\x22' :: rest =>
    have hlen : rest.length < cs.length := by
      have := length_skipGap_le cs; simp only [h, List.length_cons] at this; omega
    match readText? rest with
    | some ⟨name, rest₁, h₁⟩ =>
      match h₂ : skipGap rest₁ with
      | ':' :: rest₂ =>
        have hlen₂ : rest₂.length < cs.length := by
          have := length_skipGap_le rest₁; simp only [h₂, List.length_cons] at this; omega
        match readValue? rest₂ with
        | none => none
        | some ⟨value, rest₃, h₃⟩ =>
          match h₄ : skipGap rest₃ with
          | '\x7d' :: rest₄ => some ⟨[(name, value)], rest₄, by
              have := length_skipGap_le rest₃; simp only [h₄, List.length_cons] at this; omega⟩
          | ',' :: rest₄ =>
            have hlen₄ : rest₄.length < cs.length := by
              have := length_skipGap_le rest₃; simp only [h₄, List.length_cons] at this; omega
            (readMembers? rest₄).map fun c =>
              (c.map ((name, value) :: ·)).weaken (Nat.le_of_lt hlen₄)
          | _ => none
      | _ => none
    | none => none
  | _ => none
termination_by (cs.length, 0)

end

def read? (s : String) : Option Json :=
  match readValue? s.toList with
  | some ⟨value, rest, _⟩ => if (skipGap rest).isEmpty then some value else none
  | none => none

end Templating.Json
