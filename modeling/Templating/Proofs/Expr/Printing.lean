import Mathlib
import Templating.Proofs.Expr.Fitting

/-!
# Printing expressions

`Expr.written` gives the tokens that write a tree down, with parentheses around an operand exactly
where the operator above it binds more tightly than the operand's own (`enclosed`). They are
derivable and every one of them can be spelled (`Prints`, with one lemma for each way to put an
expression together), so what is printed is read back as the same tree (`parse?_print`).
-/

namespace Templating

namespace Number

def isInt64 (n : Int) : Bool :=
  minInt64 ≤ n && n ≤ maxInt64

theorem toList_intText (n : Int) :
    (intText n).toList = if n < 0 then '-' :: Nat.toDigits 10 n.natAbs else Nat.toDigits 10 n.natAbs := by
  unfold intText
  split <;> simp [String.toList_append]

theorem readDigits?_toDigits (n : Nat) : readDigits? (Nat.toDigits 10 n) = some n := by
  have hdigits : (Nat.toDigits 10 n).all Char.isDigit = true :=
    List.all_eq_true.2 fun c hc => Nat.isDigit_of_mem_toDigits (by decide) (by decide) hc
  have hvalue : digitsValue (Nat.toDigits 10 n) = n := by
    rw [digitsValue_eq]
    exact Nat.ofDigitChars_toDigits (by decide) (by decide)
  rw [readDigits?, if_pos ⟨Nat.toDigits_ne_nil, hdigits⟩, hvalue]

theorem readSign_toDigits (n : Nat) : readSign (Nat.toDigits 10 n) = (false, Nat.toDigits 10 n) := by
  have hdigit : ∀ c ∈ Nat.toDigits 10 n, c.isDigit = true :=
    fun c hc => Nat.isDigit_of_mem_toDigits (by decide) (by decide) hc
  unfold readSign
  split
  · rename_i cs hcs
    cases hdigit '-' (by simp [hcs])
  · rename_i cs hcs
    cases hdigit '+' (by simp [hcs])
  · rfl

theorem readInt?_intText (n : Int) : readInt? (intText n).toList = some n := by
  rw [toList_intText]
  split
  · rename_i hneg
    simp [readInt?, readSign, readDigits?_toDigits, abs_of_neg hneg]
  · rename_i hpos
    simp [readInt?, readSign_toDigits, readDigits?_toDigits, abs_of_nonneg (not_lt.1 hpos)]

theorem read?_intText {n : Int} (hn : isInt64 n = true) : read? (intText n).toList = some (.int n) := by
  have hread : readInt64? (intText n).toList = some n := by
    rw [readInt64?, readInt?_intText]
    exact if_pos hn
  rw [read?, hread]

end Number

namespace Expr

theorem isIntegerText_intText (n : Int) : isIntegerText (Number.intText n) = true := by
  have hall : (Nat.toDigits 10 n.natAbs).all Char.isDigit = true :=
    List.all_eq_true.2 fun c hc => Nat.isDigit_of_mem_toDigits (by decide) (by decide) hc
  obtain ⟨d, ds, hds⟩ := List.exists_cons_of_ne_nil (Nat.toDigits_ne_nil (n := n.natAbs) (b := 10))
  rw [hds, List.all_cons, Bool.and_eq_true] at hall
  rw [isIntegerText, Number.toList_intText, hds]
  split
  · rename_i h
    split at h <;> cases h
  · rename_i h
    split at h <;> cases h <;> simp [hall]

/-! ## Levels -/

def Level.rank : Level → Nat
  | .or => 0
  | .and => 1
  | .not => 2
  | .comparison => 3
  | .operand | .item => 4

def level : Expr → Level
  | .logical .or _ _ => .or
  | .logical .and _ _ => .and
  | .negation _ => .not
  | .comparison _ _ _ => .comparison
  | _ => .operand

theorem level_ne_item (e : Expr) : e.level ≠ .item := by
  unfold level
  split <;> exact Level.noConfusion

variable {a b least : Level} {ks ls : List TokenKind} {e left right : Expr}

theorem Derives.and_of_not (h : Derives .not ks e) : Derives .and ks e := by
  have hand : Derives .and (ks ++ Part.chained .andAnd []) (Part.folded .and e []) := .and h (by simp)
  simpa [Part.chained, Part.folded] using hand

theorem Derives.or_of_and (h : Derives .and ks e) : Derives .or ks e := by
  have hor : Derives .or (ks ++ Part.chained .orOr []) (Part.folded .or e []) := .or h (by simp)
  simpa [Part.chained, Part.folded] using hor

/-- What is derivable at a level is so at those that bind less tightly. -/
theorem Derives.loosen (h : Derives a ks e) (ha : a ≠ .item) (hb : b ≠ .item)
    (hrank : b.rank ≤ a.rank) : Derives b ks e := by
  have hcomparison (h3 : 3 ≤ a.rank) : Derives .comparison ks e := by
    cases a with
    | comparison => exact h
    | operand => exact .single h
    | item => exact absurd rfl ha
    | _ => exact absurd h3 (by decide)
  have hnot (h2 : 2 ≤ a.rank) : Derives .not ks e := by
    cases a with
    | not => exact h
    | or | and => exact absurd h2 (by decide)
    | _ => exact .positive (hcomparison (by decide))
  have hand (h1 : 1 ≤ a.rank) : Derives .and ks e := by
    cases a with
    | and => exact h
    | or => exact absurd h1 (by decide)
    | _ => exact (hnot (by decide)).and_of_not
  cases b with
  | or =>
    cases a with
    | or => exact h
    | _ => exact (hand (by decide)).or_of_and
  | and => exact hand hrank
  | not => exact hnot hrank
  | comparison => exact hcomparison hrank
  | operand =>
    cases a with
    | operand => exact h
    | item => exact absurd rfl ha
    | _ => exact absurd hrank (by decide)
  | item => exact absurd rfl hb

theorem Derives.or_append (hleft : Derives .or ks left) (hright : Derives .and ls right) :
    Derives .or (ks ++ .orOr :: ls) (.logical .or left right) := by
  cases hleft with
  | @or ks first parts hfirst hparts =>
    have hall : ∀ p ∈ parts ++ [(ls, right)], Derives .and p.1 p.2 := by
      intro p hp
      rcases List.mem_append.1 hp with hp | hp
      · exact hparts p hp
      · obtain rfl := List.mem_singleton.1 hp
        exact hright
    simpa [Part.chained, Part.folded] using Derives.or hfirst hall

theorem Derives.and_append (hleft : Derives .and ks left) (hright : Derives .not ls right) :
    Derives .and (ks ++ .andAnd :: ls) (.logical .and left right) := by
  cases hleft with
  | @and ks first parts hfirst hparts =>
    have hall : ∀ p ∈ parts ++ [(ls, right)], Derives .not p.1 p.2 := by
      intro p hp
      rcases List.mem_append.1 hp with hp | hp
      · exact hparts p hp
      · obtain rfl := List.mem_singleton.1 hp
        exact hright
    simpa [Part.chained, Part.folded] using Derives.and hfirst hall

/-! ## The tokens of a tree -/

/-- The tokens of an operand, in parentheses if its own operator binds less tightly than `least`. -/
def enclosed (least : Level) (operand : Expr) (ks : List TokenKind) : List TokenKind :=
  if operand.level.rank < least.rank then .leftParen :: ks ++ [.rightParen] else ks

def literalTokens : Value → List TokenKind
  | .null => [.ident "null"]
  | .bool value => [.ident (if value then "true" else "false")]
  | .text value => [.text value]
  | .number (.int n) => [.number (Number.intText n)]
  | _ => []

mutual

/-- The tokens of an expression. A variable stands behind `$`, and parentheses only where they are
needed. -/
def written : Expr → List TokenKind
  | .literal value => literalTokens value
  | .array items => .leftBracket :: Part.listed false (writtenParts items) ++ [.rightBracket]
  | .variable name accessors => .variable name :: Part.bracketed (writtenParts accessors)
  | .call name args =>
    .ident name :: .leftParen :: Part.listed false (writtenParts args) ++ [.rightParen]
  | .negation operand => .bang :: enclosed .not operand operand.written
  | .logical .or left right =>
    enclosed .or left left.written ++ .orOr :: enclosed .and right right.written
  | .logical .and left right =>
    enclosed .and left left.written ++ .andAnd :: enclosed .not right right.written
  | .comparison op left right =>
    enclosed .operand left left.written ++ .comparison op :: enclosed .operand right right.written
  | .invalid _ => []

def writtenParts : List Expr → List Part
  | [] => []
  | e :: es => (e.written, e) :: writtenParts es

end

mutual

/-- The tree consists of what can be written: texts, integers of 64 bits, truth values, null, arrays,
variables, calls and operators, and every name is one. -/
def isWritable : Expr → Bool
  | .literal .null | .literal (.bool _) | .literal (.text _) => true
  | .literal (.number (.int n)) => Number.isInt64 n
  | .literal _ => false
  | .array items => areWritable items
  | .variable name accessors => isIdentifier name && areWritable accessors
  | .call name args => isIdentifier name && areWritable args
  | .negation operand => operand.isWritable
  | .logical _ left right => left.isWritable && right.isWritable
  | .comparison _ left right => left.isWritable && right.isWritable
  | .invalid _ => false

def areWritable : List Expr → Bool
  | [] => true
  | e :: es => e.isWritable && areWritable es

end

/-- The expression printed: `gap i` stands before its token with the number `i`, and the last gap
behind all of them. -/
def print (gap : Nat → List Char) (e : Expr) : String :=
  String.ofList (spaced gap e.written)

/-! ## What is written is derivable -/

/-- No word that stands for itself begins the list, whatever is written behind it. -/
def BeginsClear (ks : List TokenKind) : Prop :=
  ∃ k rest, ks = k :: rest ∧
    ∀ word, k = .ident word → namedConstant? word ≠ none ∨ rest.head? = some .leftParen

theorem BeginsClear.append (h : BeginsClear ks) (more : List TokenKind) :
    BeginsClear (ks ++ more) := by
  obtain ⟨k, rest, rfl, hword⟩ := h
  refine ⟨k, rest ++ more, rfl, fun word hk => (hword word hk).imp id fun hhead => ?_⟩
  rw [List.head?_append, hhead]
  rfl

theorem BeginsClear.not_beginsWithWord (h : BeginsClear ks) : ¬BeginsWithWord ks := by
  rintro ⟨word, rest, rfl, hname, hcall, -⟩
  obtain ⟨k, rest', hks, hword⟩ := h
  obtain ⟨rfl, rfl⟩ := List.cons.inj hks
  rcases hword word rfl with hsome | hparen
  · exact hsome hname
  · exact hcall hparen

theorem beginsClear_cons {k : TokenKind} (hk : ∀ word, k ≠ .ident word) (rest : List TokenKind) :
    BeginsClear (k :: rest) :=
  ⟨k, rest, rfl, fun word h => absurd h (hk word)⟩

structure Prints (level : Level) (ks : List TokenKind) (e : Expr) : Prop where
  derives : Derives level ks e
  spellable : ∀ k ∈ ks, k.isSpellable = true
  clear : BeginsClear ks

namespace Prints

theorem loosen (h : Prints e.level ks e) (hb : b ≠ .item) (hrank : b.rank ≤ e.level.rank) :
    Prints b ks e where
  derives := h.derives.loosen e.level_ne_item hb hrank
  spellable := h.spellable
  clear := h.clear

theorem group (h : Prints e.level ks e) : Prints .operand (.leftParen :: ks ++ [.rightParen]) e where
  derives := .group (h.loosen Level.noConfusion (Nat.zero_le _)).derives
  spellable := by
    simp only [List.cons_append, List.forall_mem_cons, List.forall_mem_append]
    exact ⟨rfl, h.spellable, by simp [TokenKind.isSpellable]⟩
  clear := beginsClear_cons (fun _ => TokenKind.noConfusion) _

theorem enclosed (h : Prints e.level ks e) (hleast : least ≠ .item) :
    Prints least (enclosed least e ks) e := by
  unfold Expr.enclosed
  split
  · exact ⟨h.group.derives.loosen Level.noConfusion hleast (by cases least <;> decide),
      h.group.spellable, h.group.clear⟩
  · exact h.loosen hleast (by omega)

theorem joined {op : TokenKind} (hleft : Prints a ks left) (hright : Prints b ls right)
    (hop : op.isSpellable = true) (h : Derives least (ks ++ op :: ls) e) :
    Prints least (ks ++ op :: ls) e where
  derives := h
  spellable := by
    simp only [List.forall_mem_append, List.forall_mem_cons]
    exact ⟨hleft.spellable, hop, hright.spellable⟩
  clear := hleft.clear.append _

theorem negation (h : Prints .not ks e) : Prints .not (.bang :: ks) (.negation e) where
  derives := .negation h.derives
  spellable := List.forall_mem_cons.2 ⟨rfl, h.spellable⟩
  clear := beginsClear_cons (fun _ => TokenKind.noConfusion) _

variable {parts : List Part} {name : String}

theorem spellable_listed (hparts : ∀ p ∈ parts, Prints .or p.1 p.2) :
    ∀ k ∈ Part.listed false parts, k.isSpellable = true := by
  induction parts with
  | nil => simp [Part.listed]
  | cons p parts ih =>
    obtain ⟨hp, hall⟩ := List.forall_mem_cons.1 hparts
    rw [Part.listed_cons, List.forall_mem_append]
    refine ⟨hp.spellable, ?_⟩
    split
    · simp
    · exact List.forall_mem_cons.2 ⟨rfl, ih hall⟩

theorem spellable_bracketed (hparts : ∀ p ∈ parts, Prints .or p.1 p.2) :
    ∀ k ∈ Part.bracketed parts, k.isSpellable = true := by
  induction parts with
  | nil => simp [Part.bracketed]
  | cons p parts ih =>
    obtain ⟨hp, hall⟩ := List.forall_mem_cons.1 hparts
    simp only [Part.bracketed_cons, List.forall_mem_cons, List.forall_mem_append]
    exact ⟨rfl, hp.spellable, rfl, ih hall⟩

theorem array (hparts : ∀ p ∈ parts, Prints .or p.1 p.2) :
    Prints .operand (.leftBracket :: Part.listed false parts ++ [.rightBracket])
      (.array (Part.trees parts)) where
  derives := .array false fun p hp =>
    .whole (hparts p hp).derives (hparts p hp).clear.not_beginsWithWord
  spellable := by
    simp only [List.cons_append, List.forall_mem_cons, List.forall_mem_append]
    exact ⟨rfl, spellable_listed hparts, by simp [TokenKind.isSpellable]⟩
  clear := beginsClear_cons (fun _ => TokenKind.noConfusion) _

theorem «variable» (hname : isIdentifier name = true) (hparts : ∀ p ∈ parts, Prints .or p.1 p.2) :
    Prints .operand (.variable name :: Part.bracketed parts)
      (.variable name (Part.trees parts)) where
  derives := .marked name fun p hp => (hparts p hp).derives
  spellable := List.forall_mem_cons.2 ⟨hname, spellable_bracketed hparts⟩
  clear := beginsClear_cons (fun _ => TokenKind.noConfusion) _

theorem call (hname : isIdentifier name = true) (hparts : ∀ p ∈ parts, Prints .or p.1 p.2) :
    Prints .operand (.ident name :: .leftParen :: Part.listed false parts ++ [.rightParen])
      (.call name (Part.trees parts)) where
  derives := .call name fun p hp => (hparts p hp).derives
  spellable := by
    simp only [List.cons_append, List.forall_mem_cons, List.forall_mem_append]
    exact ⟨hname, rfl, spellable_listed hparts, by simp [TokenKind.isSpellable]⟩
  clear := ⟨_, _, rfl, fun _ _ => .inr rfl⟩

theorem constant {value : Value} (hname : isIdentifier name = true)
    (hvalue : namedConstant? name = some value) : Prints .operand [.ident name] (.literal value) where
  derives := .constant hvalue
  spellable := by simpa [TokenKind.isSpellable] using hname
  clear := by
    refine ⟨_, _, rfl, fun word hword => .inl ?_⟩
    obtain rfl : name = word := by simpa using hword
    simp [hvalue]

theorem namedConstant?_null : namedConstant? "null" = some .null := by
  cbv

theorem namedConstant?_bool (value : Bool) :
    namedConstant? (if value then "true" else "false") = some (.bool value) := by
  cases value <;> cbv

theorem literal {value : Value} (h : isWritable (.literal value) = true) :
    Prints .operand (literalTokens value) (.literal value) := by
  cases value with
  | null => exact constant rfl namedConstant?_null
  | bool value => exact constant (by cases value <;> rfl) (namedConstant?_bool value)
  | text value =>
    exact ⟨.text value, by simp [literalTokens, TokenKind.isSpellable],
      beginsClear_cons (fun _ => TokenKind.noConfusion) _⟩
  | number n =>
    cases n with
    | int n =>
      exact ⟨.number (Number.read?_intText (by simpa [isWritable] using h)),
        by simp [literalTokens, TokenKind.isSpellable, isIntegerText_intText],
        beginsClear_cons (fun _ => TokenKind.noConfusion) _⟩
    | float => simp [isWritable] at h
  | list | map => simp [isWritable] at h

end Prints

theorem trees_writtenParts (es : List Expr) : Part.trees (writtenParts es) = es := by
  induction es with
  | nil => rfl
  | cons e es ih => simpa [writtenParts, Part.trees] using ih

mutual

theorem prints_written : ∀ {e : Expr}, e.isWritable = true → Prints e.level e.written e
  | .literal _, h => .literal h
  | .array items, h => by
    have hitems : areWritable items = true := by simpa [isWritable] using h
    have hprints := Prints.array (prints_writtenParts hitems)
    simpa only [written, level, trees_writtenParts] using hprints
  | .variable name accessors, h => by
    simp only [isWritable, Bool.and_eq_true] at h
    have hprints := Prints.variable h.1 (prints_writtenParts h.2)
    simpa only [written, level, trees_writtenParts] using hprints
  | .call name args, h => by
    simp only [isWritable, Bool.and_eq_true] at h
    have hprints := Prints.call h.1 (prints_writtenParts h.2)
    simpa only [written, level, trees_writtenParts] using hprints
  | .negation operand, h => by
    have hoperand := prints_written (e := operand) (by simpa [isWritable] using h)
    rw [written]
    exact .negation (hoperand.enclosed Level.noConfusion)
  | .logical .or left right, h => by
    simp only [isWritable, Bool.and_eq_true] at h
    have hleft : Prints .or (enclosed .or left left.written) left :=
      (prints_written h.1).enclosed Level.noConfusion
    have hright : Prints .and (enclosed .and right right.written) right :=
      (prints_written h.2).enclosed Level.noConfusion
    rw [written]
    exact hleft.joined hright rfl (hleft.derives.or_append hright.derives)
  | .logical .and left right, h => by
    simp only [isWritable, Bool.and_eq_true] at h
    have hleft : Prints .and (enclosed .and left left.written) left :=
      (prints_written h.1).enclosed Level.noConfusion
    have hright : Prints .not (enclosed .not right right.written) right :=
      (prints_written h.2).enclosed Level.noConfusion
    rw [written]
    exact hleft.joined hright rfl (hleft.derives.and_append hright.derives)
  | .comparison op left right, h => by
    simp only [isWritable, Bool.and_eq_true] at h
    have hleft : Prints .operand (enclosed .operand left left.written) left :=
      (prints_written h.1).enclosed Level.noConfusion
    have hright : Prints .operand (enclosed .operand right right.written) right :=
      (prints_written h.2).enclosed Level.noConfusion
    rw [written]
    exact hleft.joined hright rfl (.compared op hleft.derives hright.derives)
  | .invalid _, h => by simp [isWritable] at h

theorem prints_writtenParts : ∀ {es : List Expr}, areWritable es = true →
    ∀ p ∈ writtenParts es, Prints .or p.1 p.2
  | [], _ => by simp [writtenParts]
  | e :: es, h => by
    simp only [areWritable, Bool.and_eq_true] at h
    rw [writtenParts, List.forall_mem_cons]
    exact ⟨(prints_written h.1).loosen Level.noConfusion (Nat.zero_le _), prints_writtenParts h.2⟩

end

/-- What is printed is read back as the same tree, however it is spaced. -/
theorem parse?_print {e : Expr} (he : e.isWritable = true) {gap : Nat → List Char}
    (hgap : ∀ i, ∀ c ∈ gap i, isGap c = true) : parse? (e.print gap) = .ok e := by
  have hprints := (prints_written he).loosen (b := .or) Level.noConfusion (Nat.zero_le _)
  exact parse?_spaced hprints.derives hprints.spellable hgap

/-- Parentheses on both sides, the smallest integer, and a quote and a backslash in texts. -/
theorem parse?_print_nested :
    parse? "($a['it\x5c's']||!(true&&false))&&-9223372036854775808===(!f([null,'\x5c\x5c']))" =
      .ok (.logical .and
        (.logical .or (.variable "a" [.text "it's"])
          (.negation (.logical .and (.literal (.bool true)) (.literal (.bool false)))))
        (.comparison .strictEq (.literal (.int (-9223372036854775808)))
          (.negation (.call "f" [.array [.literal .null, .text "\x5c"]])))) := by
  have hprint : print (fun _ => []) (.logical .and
        (.logical .or (.variable "a" [.text "it's"])
          (.negation (.logical .and (.literal (.bool true)) (.literal (.bool false)))))
        (.comparison .strictEq (.literal (.int (-9223372036854775808)))
          (.negation (.call "f" [.array [.literal .null, .text "\x5c"]])))) =
      "($a['it\x5c's']||!(true&&false))&&-9223372036854775808===(!f([null,'\x5c\x5c']))" := by
    cbv
  rw [← hprint]
  exact parse?_print (by decide) fun _ _ hmem => absurd hmem List.not_mem_nil

end Expr

end Templating
