import Templating.Proofs.Expr.Sound

/-!
# What is derivable the expression parser reads

A derivation says how each function of the parser goes through the kinds of tokens, as long as what
follows them is no part of the expression. With soundness this makes the tree of a token list unique.
-/

namespace Templating.Expr

theorem exists_cons_of_kinds {k : TokenKind} {ks : List TokenKind} {ts : List Token}
    (h : kinds ts = k :: ks) : ∃ t rest, ts = t :: rest ∧ t.kind = k ∧ kinds rest = ks := by
  cases ts with
  | nil => cases h
  | cons t rest =>
    obtain ⟨hkind, hrest⟩ := List.cons.inj h
    exact ⟨t, rest, rfl, hkind, hrest⟩

theorem exists_eat {kind : TokenKind} {ts : List Token} {more : List TokenKind}
    (h : kinds ts = kind :: more) :
    ∃ c : Consumed ts Unit, eat kind ts = some c ∧ kinds c.rest = more := by
  cases ts with
  | nil => cases h
  | cons t ts =>
    obtain ⟨hkind, hrest⟩ := List.cons.inj h
    exact ⟨⟨(), ts, Nat.lt_succ_self _⟩, by simp only [eat, if_pos hkind], hrest⟩

theorem eat_eq_none (kind : TokenKind) {ts : List Token} {ks : List TokenKind}
    (h : kinds ts = ks) (hne : ks.head? ≠ some kind) : eat kind ts = none := by
  cases ts with
  | nil => rfl
  | cons t ts =>
    subst h
    simp only [eat]
    rw [if_neg]
    intro hkind
    exact hne (congrArg some hkind)

theorem exists_expect (length : Nat) (fault : ExprFault) {kind : TokenKind} {ts : List Token}
    {more : List TokenKind} (h : kinds ts = kind :: more) :
    ∃ c : Consumed ts Unit, expect length kind fault ts = .ok c ∧ kinds c.rest = more := by
  obtain ⟨c, hc, hrest⟩ := exists_eat h
  exact ⟨c, by rw [expect, hc], hrest⟩

theorem exists_eatComparison {op : Comparison} {ts : List Token} {more : List TokenKind}
    (h : kinds ts = .comparison op :: more) :
    ∃ c : Consumed ts Comparison, eatComparison ts = some c ∧ c.value = op ∧
      kinds c.rest = more := by
  cases ts with
  | nil => cases h
  | cons t ts =>
    obtain ⟨kind, start, stop⟩ := t
    obtain ⟨hkind, hrest⟩ := List.cons.inj h
    cases hkind
    exact ⟨_, rfl, rfl, hrest⟩

theorem eatComparison_eq_none {ts : List Token} {ks : List TokenKind} (h : kinds ts = ks)
    (hne : ∀ op, ks.head? ≠ some (.comparison op)) : eatComparison ts = none := by
  unfold eatComparison
  split
  · subst h
    exact absurd rfl (hne _)
  · rfl

theorem opensGroup_eq_false {ts : List Token} {ks : List TokenKind} (h : kinds ts = ks)
    (hparen : ks.head? ≠ some .leftParen) (hbracket : ks.head? ≠ some .leftBracket) :
    opensGroup ts = false := by
  cases ts with
  | nil => rfl
  | cons t ts =>
    subst h
    simpa [opensGroup] using And.intro hparen hbracket

theorem map_ok {α β : Type} {ts : List Token} {x : Parsed ts α} {c : Consumed ts α}
    (h : x = .ok c) (f : α → β) : x.map (·.map f) = .ok (c.map f) := by
  subst h
  rfl

namespace Level

theorem Stops.head_ne {level : Level} {ks : List TokenKind} {k : TokenKind} (h : level.Stops ks)
    (hk : level.continues k = true) : ks.head? ≠ some k := by
  intro hhead
  rw [h k hhead] at hk
  cases hk

theorem stops_nil (level : Level) : level.Stops [] := by
  intro k hk
  cases hk

theorem stops_cons {level : Level} {k : TokenKind} (h : level.continues k = false)
    (ks : List TokenKind) : level.Stops (k :: ks) := by
  intro k' hk
  cases hk
  exact h

/-- What a tighter level takes for a part of an expression a looser one does too. -/
theorem Stops.mono {loose tight : Level} {ks : List TokenKind} (h : loose.Stops ks)
    (hle : ∀ k, loose.continues k = false → tight.continues k = false) : tight.Stops ks :=
  fun k hk => hle k (h k hk)

theorem Stops.and_of_or {ks : List TokenKind} (h : Level.or.Stops ks) : Level.and.Stops ks :=
  h.mono fun k => by cases k <;> simp [continues]

theorem Stops.not_of_and {ks : List TokenKind} (h : Level.and.Stops ks) : Level.not.Stops ks :=
  h.mono fun k => by cases k <;> simp [continues]

theorem Stops.operand_of_comparison {ks : List TokenKind} (h : Level.comparison.Stops ks) :
    Level.operand.Stops ks :=
  h.mono fun k => by cases k <;> simp [continues]

theorem Stops.or_of_item {ks : List TokenKind} (h : Level.item.Stops ks) : Level.or.Stops ks :=
  h.mono fun k => by cases k <;> simp [continues]

theorem Stops.chained {level : Level} {more : List TokenKind} (h : level.Stops more)
    (mark : TokenKind) (hmark : level.continues mark = false) (parts : List Part) :
    level.Stops (Part.chained mark parts ++ more) := by
  cases parts with
  | nil => exact h
  | cons p parts => exact Part.chained_cons mark p parts ▸ stops_cons hmark _

def parse (length : Nat) : Level → (ts : List Token) → Parsed ts Expr
  | .or => parseOr length
  | .and => parseAnd length
  | .not => parseNot length
  | .comparison => parseComparison length
  | .operand => parseOperand length
  | .item => parseItem length

end Level

/-- The parser reads the kinds as the tree, whatever tokens they are of and whatever follows that is
no part of the expression. -/
def Completes (length : Nat) (level : Level) (ks : List TokenKind) (e : Expr) : Prop :=
  ∀ ts more, kinds ts = ks ++ more → level.Stops more →
    ∃ c : Consumed ts Expr, level.parse length ts = .ok c ∧ c.value = e ∧ kinds c.rest = more

variable {length : Nat} {ts : List Token} {more : List TokenKind}

theorem exists_continueOr {parts : List Part} (left : Consumed ts Expr)
    (hparts : ∀ p ∈ parts, Completes length .and p.1 p.2)
    (hks : kinds left.rest = Part.chained .orOr parts ++ more) (hstop : Level.or.Stops more) :
    ∃ c, continueOr length ts left = .ok c ∧ c.value = Part.folded .or left.value parts ∧
      kinds c.rest = more := by
  induction parts generalizing left with
  | nil =>
    have hnone := eat_eq_none .orOr hks (hstop.head_ne rfl)
    exact ⟨left, by rw [continueOr, hnone], rfl, hks⟩
  | cons p parts ih =>
    rw [Part.chained_cons, List.cons_append, List.append_assoc] at hks
    obtain ⟨hp, hall⟩ := List.forall_mem_cons.1 hparts
    obtain ⟨mark, hmark, hmarked⟩ := exists_eat hks
    obtain ⟨right, hright, hvalue, hrest⟩ :=
      hp _ _ hmarked (hstop.and_of_or.chained .orOr rfl parts)
    obtain ⟨c, hc, hcvalue, hcrest⟩ :=
      ih (left.step (mark.step right ()) (.logical .or left.value right.value)) hall hrest
    refine ⟨c, ?_, ?_, hcrest⟩
    · rw [continueOr, hmark]
      simp only [show parseAnd length mark.rest = .ok right from hright]
      exact hc
    · rw [hcvalue, Consumed.step_value, hvalue]
      rfl

theorem exists_continueAnd {parts : List Part} (left : Consumed ts Expr)
    (hparts : ∀ p ∈ parts, Completes length .not p.1 p.2)
    (hks : kinds left.rest = Part.chained .andAnd parts ++ more) (hstop : Level.and.Stops more) :
    ∃ c, continueAnd length ts left = .ok c ∧ c.value = Part.folded .and left.value parts ∧
      kinds c.rest = more := by
  induction parts generalizing left with
  | nil =>
    have hnone := eat_eq_none .andAnd hks (hstop.head_ne rfl)
    exact ⟨left, by rw [continueAnd, hnone], rfl, hks⟩
  | cons p parts ih =>
    rw [Part.chained_cons, List.cons_append, List.append_assoc] at hks
    obtain ⟨hp, hall⟩ := List.forall_mem_cons.1 hparts
    obtain ⟨mark, hmark, hmarked⟩ := exists_eat hks
    obtain ⟨right, hright, hvalue, hrest⟩ :=
      hp _ _ hmarked (hstop.not_of_and.chained .andAnd rfl parts)
    obtain ⟨c, hc, hcvalue, hcrest⟩ :=
      ih (left.step (mark.step right ()) (.logical .and left.value right.value)) hall hrest
    refine ⟨c, ?_, ?_, hcrest⟩
    · rw [continueAnd, hmark]
      simp only [show parseNot length mark.rest = .ok right from hright]
      exact hc
    · rw [hcvalue, Consumed.step_value, hvalue]
      rfl

theorem exists_parseAccessors {parts : List Part} (place : Consumed ts Unit)
    (hparts : ∀ p ∈ parts, Completes length .or p.1 p.2)
    (hks : kinds place.rest = Part.bracketed parts ++ more)
    (hstop : more.head? ≠ some .leftBracket) :
    ∃ c, parseAccessors length ts place = .ok c ∧ c.value = Part.trees parts ∧
      kinds c.rest = more := by
  induction parts generalizing place with
  | nil => exact ⟨place.map fun _ => [], by rw [parseAccessors, eat_eq_none .leftBracket hks hstop], rfl, hks⟩
  | cons p parts ih =>
    rw [Part.bracketed_cons, List.cons_append, List.append_assoc, List.cons_append] at hks
    obtain ⟨hp, hall⟩ := List.forall_mem_cons.1 hparts
    obtain ⟨opening, hopening, hopened⟩ := exists_eat hks
    obtain ⟨key, hkey, hvalue, hrest⟩ := hp _ _ hopened (Level.stops_cons rfl _)
    obtain ⟨closing, hclosing, hclosed⟩ :=
      exists_expect length .expectedRightBracket hrest
    obtain ⟨c, hc, hcvalue, hcrest⟩ :=
      ih (place.step (opening.step (key.step closing ()) ()) ()) hall hclosed
    refine ⟨c.map (key.value :: ·), ?_, ?_, hcrest⟩
    · rw [parseAccessors, hopening]
      simp only [show parseOr length opening.rest = .ok key from hkey, hclosing, hc]
      rfl
    · rw [Consumed.map_value, hvalue, hcvalue]
      rfl

theorem exists_parseItems {parts : List Part} (trailing : Bool) (place : Consumed ts Unit)
    (hd : ∀ p ∈ parts, Derives .item p.1 p.2)
    (hparts : ∀ p ∈ parts, Completes length .item p.1 p.2)
    (hks : kinds place.rest = Part.listed trailing parts ++ .rightBracket :: more) :
    ∃ c, parseItems length ts place = .ok c ∧ c.value = Part.trees parts ∧
      kinds c.rest = more := by
  induction parts generalizing place with
  | nil =>
    obtain ⟨closing, hclosing, hclosed⟩ := exists_eat hks
    exact ⟨place.step closing [], by rw [parseItems, hclosing], rfl, hclosed⟩
  | cons p parts ih =>
    obtain ⟨hdp, hdall⟩ := List.forall_mem_cons.1 hd
    obtain ⟨hp, hall⟩ := List.forall_mem_cons.1 hparts
    rw [Part.listed_cons, List.append_assoc] at hks
    have hopen := eat_eq_none .rightBracket hks (hdp.head_ne rfl _)
    split at hks
    · rename_i hlast
      obtain ⟨item, hitem, hvalue, hrest⟩ := hp _ _ hks (Level.stops_cons rfl _)
      have hcomma := eat_eq_none .comma hrest (by simp)
      obtain ⟨closing, hclosing, hclosed⟩ :=
        exists_expect length .expectedCommaOrBracket hrest
      refine ⟨place.step (item.step closing ()) [item.value], ?_, ?_, hclosed⟩
      · rw [parseItems, hopen]
        simp only [show parseItem length place.rest = .ok item from hitem, hcomma, hclosing]
      · rw [Consumed.step_value, hvalue, hlast.1]
        rfl
    · obtain ⟨item, hitem, hvalue, hrest⟩ := hp _ _ hks (Level.stops_cons rfl _)
      obtain ⟨comma, hcomma, hmarked⟩ := exists_eat hrest
      obtain ⟨c, hc, hcvalue, hcrest⟩ := ih (place.step (item.step comma ()) ()) hdall hall hmarked
      refine ⟨c.map (item.value :: ·), ?_, ?_, hcrest⟩
      · rw [parseItems, hopen]
        simp only [show parseItem length place.rest = .ok item from hitem, hcomma, hc]
        rfl
      · rw [Consumed.map_value, hvalue, hcvalue]
        rfl

theorem exists_parseArgList {p : Part} {parts : List Part} (place : Consumed ts Unit)
    (hparts : ∀ q ∈ p :: parts, Completes length .or q.1 q.2)
    (hks : kinds place.rest = Part.listed false (p :: parts) ++ .rightParen :: more) :
    ∃ c, parseArgList length ts place = .ok c ∧ c.value = Part.trees (p :: parts) ∧
      kinds c.rest = more := by
  induction parts generalizing p place with
  | nil =>
    have hp := hparts p (List.mem_singleton_self p)
    rw [Part.listed_cons, List.append_assoc, if_pos ⟨rfl, rfl⟩, List.nil_append] at hks
    obtain ⟨arg, harg, hvalue, hrest⟩ := hp _ _ hks (Level.stops_cons rfl _)
    obtain ⟨closing, hclosing, hclosed⟩ := exists_eat hrest
    refine ⟨place.step (arg.step closing ()) [arg.value], ?_, ?_, hclosed⟩
    · rw [parseArgList]
      simp only [show parseOr length place.rest = .ok arg from harg, hclosing]
    · rw [Consumed.step_value, hvalue]
      rfl
  | cons q parts ih =>
    obtain ⟨hp, hall⟩ := List.forall_mem_cons.1 hparts
    rw [Part.listed_cons, List.append_assoc, if_neg (by simp), List.cons_append] at hks
    obtain ⟨arg, harg, hvalue, hrest⟩ := hp _ _ hks (Level.stops_cons rfl _)
    have hopen := eat_eq_none .rightParen hrest (by simp)
    obtain ⟨comma, hcomma, hmarked⟩ := exists_expect length .expectedComma hrest
    obtain ⟨c, hc, hcvalue, hcrest⟩ := ih (place.step (arg.step comma ()) ()) hall hmarked
    refine ⟨c.map (arg.value :: ·), ?_, ?_, hcrest⟩
    · rw [parseArgList]
      simp only [show parseOr length place.rest = .ok arg from harg, hopen, hcomma, hc]
      rfl
    · rw [Consumed.map_value, hvalue, hcvalue]
      rfl

theorem exists_parseArgs {parts : List Part} (place : Consumed ts Unit)
    (hd : ∀ p ∈ parts, Derives .or p.1 p.2)
    (hparts : ∀ p ∈ parts, Completes length .or p.1 p.2)
    (hks : kinds place.rest = Part.listed false parts ++ .rightParen :: more) :
    ∃ c, parseArgs length ts place = .ok c ∧ c.value = Part.trees parts ∧
      kinds c.rest = more := by
  cases parts with
  | nil =>
    obtain ⟨closing, hclosing, hclosed⟩ := exists_eat hks
    exact ⟨place.step closing [], by rw [parseArgs, hclosing], rfl, hclosed⟩
  | cons p parts =>
    obtain ⟨c, hc⟩ := exists_parseArgList place hparts hks
    rw [Part.listed_cons, List.append_assoc] at hks
    have hopen := eat_eq_none .rightParen hks ((hd p List.mem_cons_self).head_ne rfl _)
    exact ⟨c, by rw [parseArgs, hopen]; exact hc⟩

theorem eatBareWord_eq_none {ks : List TokenKind} {e : Expr} (hd : Derives .or ks e)
    (hword : ¬BeginsWithWord ks) (hks : kinds ts = ks ++ more) : eatBareWord ts = none := by
  unfold eatBareWord
  split
  · rename_i word start stop rest
    split
    · rename_i hbare
      exfalso
      rw [Bool.and_eq_true, Bool.not_eq_true', Option.isNone_iff_eq_none] at hbare
      obtain ⟨k, tail, rfl, -⟩ := hd.begins
      obtain ⟨rfl, htail⟩ := List.cons.inj hks
      refine hword ⟨word, tail, rfl, hbare.2, ?_⟩
      cases tail with
      | nil => simp
      | cons k tail =>
        rw [opensGroup_of_kinds htail] at hbare
        simpa using hbare.1
    · rfl
  · rfl

namespace Completes

theorem or {ks : List TokenKind} {e : Expr} {parts : List Part}
    (ihfirst : Completes length .and ks e) (ihparts : ∀ p ∈ parts, Completes length .and p.1 p.2) :
    Completes length .or (ks ++ Part.chained .orOr parts) (Part.folded .or e parts) := by
  intro ts more hks hstop
  rw [List.append_assoc] at hks
  obtain ⟨left, hleft, hvalue, hrest⟩ :=
    ihfirst _ _ hks (hstop.and_of_or.chained .orOr rfl parts)
  obtain ⟨c, hc, hcvalue, hcrest⟩ := exists_continueOr left ihparts hrest hstop
  refine ⟨c, ?_, by rw [hcvalue, hvalue], hcrest⟩
  simp only [Level.parse] at hleft ⊢
  rw [parseOr, hleft]
  exact hc

theorem and {ks : List TokenKind} {e : Expr} {parts : List Part}
    (ihfirst : Completes length .not ks e) (ihparts : ∀ p ∈ parts, Completes length .not p.1 p.2) :
    Completes length .and (ks ++ Part.chained .andAnd parts) (Part.folded .and e parts) := by
  intro ts more hks hstop
  rw [List.append_assoc] at hks
  obtain ⟨left, hleft, hvalue, hrest⟩ :=
    ihfirst _ _ hks (hstop.not_of_and.chained .andAnd rfl parts)
  obtain ⟨c, hc, hcvalue, hcrest⟩ := exists_continueAnd left ihparts hrest hstop
  refine ⟨c, ?_, by rw [hcvalue, hvalue], hcrest⟩
  simp only [Level.parse] at hleft ⊢
  rw [parseAnd, hleft]
  exact hc

theorem negation {ks : List TokenKind} {e : Expr} (ih : Completes length .not ks e) :
    Completes length .not (.bang :: ks) (.negation e) := by
  intro ts more hks hstop
  obtain ⟨mark, hmark, hmarked⟩ := exists_eat hks
  obtain ⟨operand, hoperand, hvalue, hrest⟩ := ih _ _ hmarked hstop
  refine ⟨mark.step operand (.negation operand.value), ?_, by rw [← hvalue]; rfl, hrest⟩
  simp only [Level.parse] at hoperand ⊢
  rw [parseNot, hmark]
  simp only [hoperand]

theorem positive {ks : List TokenKind} {e : Expr} (hd : Derives .comparison ks e)
    (ih : Completes length .comparison ks e) : Completes length .not ks e := by
  intro ts more hks hstop
  obtain ⟨k, rest, rfl, -, hbang⟩ := hd.begins
  have hmark := eat_eq_none .bang hks (by simpa using hbang (.inl rfl))
  obtain ⟨c, hc, hvalue, hrest⟩ :=
    ih _ _ hks (hstop.mono fun k => by cases k <;> simp [Level.continues])
  refine ⟨c, ?_, hvalue, hrest⟩
  simp only [Level.parse] at hc ⊢
  rw [parseNot, hmark]
  exact hc

theorem single {ks : List TokenKind} {e : Expr} (ih : Completes length .operand ks e) :
    Completes length .comparison ks e := by
  intro ts more hks hstop
  obtain ⟨left, hleft, hvalue, hrest⟩ := ih _ _ hks hstop.operand_of_comparison
  have hop := eatComparison_eq_none hrest fun op => hstop.head_ne (k := .comparison op) rfl
  refine ⟨left, ?_, hvalue, hrest⟩
  simp only [Level.parse] at hleft ⊢
  rw [parseComparison, hleft]
  simp only [hop]

theorem compared {ks ls : List TokenKind} {left right : Expr} (op : Comparison)
    (ihl : Completes length .operand ks left) (ihr : Completes length .operand ls right) :
    Completes length .comparison (ks ++ .comparison op :: ls) (.comparison op left right) := by
  intro ts more hks hstop
  rw [List.append_assoc] at hks
  obtain ⟨left, hleft, hlvalue, hlrest⟩ := ihl _ _ hks (Level.stops_cons rfl _)
  obtain ⟨mark, hmark, hmvalue, hmrest⟩ := exists_eatComparison hlrest
  obtain ⟨right, hright, hrvalue, hrrest⟩ := ihr _ _ hmrest hstop.operand_of_comparison
  refine ⟨left.step (mark.step right ()) (.comparison mark.value left.value right.value), ?_,
    by rw [← hlvalue, ← hmvalue, ← hrvalue]; rfl, hrrest⟩
  simp only [Level.parse] at hleft hright ⊢
  rw [parseComparison, hleft]
  simp only [hmark, hright]

theorem group {ks : List TokenKind} {e : Expr} (ih : Completes length .or ks e) :
    Completes length .operand (.leftParen :: ks ++ [.rightParen]) e := by
  intro ts more hks hstop
  simp only [List.cons_append, List.append_assoc, List.nil_append] at hks
  obtain ⟨t, rest, rfl, hkind, hks⟩ := exists_cons_of_kinds hks
  obtain ⟨inner, hinner, hvalue, hrest⟩ := ih _ _ hks (Level.stops_cons rfl _)
  obtain ⟨closing, hclosing, hclosed⟩ := exists_expect length .expectedRightParen hrest
  let head : Consumed (t :: rest) Unit := ⟨(), rest, Nat.lt_succ_self _⟩
  refine ⟨head.step (inner.step closing ()) inner.value, ?_, hvalue, hclosed⟩
  simp only [Level.parse] at hinner ⊢
  rw [parseOperand]
  simp only [hkind, hinner, hclosing]
  rfl

theorem text (s : String) : Completes length .operand [.text s] (.text s) := by
  intro ts more hks hstop
  obtain ⟨t, rest, rfl, hkind, hks⟩ := exists_cons_of_kinds hks
  refine ⟨⟨.text s, rest, Nat.lt_succ_self _⟩, ?_, rfl, hks⟩
  simp only [Level.parse]
  rw [parseOperand]
  simp only [hkind]
  rfl

theorem number {spelling : String} {n : Number}
    (hn : Number.read? spelling.toList = some n) :
    Completes length .operand [.number spelling] (.literal (.number n)) := by
  intro ts more hks hstop
  obtain ⟨t, rest, rfl, hkind, hks⟩ := exists_cons_of_kinds hks
  refine ⟨⟨_, rest, Nat.lt_succ_self _⟩, ?_, rfl, hks⟩
  simp only [Level.parse]
  rw [parseOperand]
  simp only [hkind, hn]
  rfl

theorem call {args : List Part} (name : String) (hd : ∀ p ∈ args, Derives .or p.1 p.2)
    (ih : ∀ p ∈ args, Completes length .or p.1 p.2) :
    Completes length .operand
      (.ident name :: .leftParen :: Part.listed false args ++ [.rightParen])
      (.call name (Part.trees args)) := by
  intro ts more hks hstop
  simp only [List.cons_append, List.append_assoc, List.nil_append] at hks
  obtain ⟨t, rest, rfl, hkind, hks⟩ := exists_cons_of_kinds hks
  obtain ⟨opening, hopening, hopened⟩ := exists_eat hks
  let head : Consumed (t :: rest) Unit := ⟨(), rest, Nat.lt_succ_self _⟩
  obtain ⟨args, hargs, hvalue, hrest⟩ :=
    exists_parseArgs (head.step opening ()) hd ih hopened
  refine ⟨args.map (.call name), ?_, by rw [← hvalue]; rfl, hrest⟩
  simp only [Level.parse]
  rw [parseOperand]
  simp only [hkind, hopening]
  exact map_ok hargs _

theorem constant {name : String} {value : Value} (hname : namedConstant? name = some value) :
    Completes length .operand [.ident name] (.literal value) := by
  intro ts more hks hstop
  obtain ⟨t, rest, rfl, hkind, hks⟩ := exists_cons_of_kinds hks
  have hcall := eat_eq_none .leftParen hks (hstop.head_ne rfl)
  refine ⟨⟨_, rest, Nat.lt_succ_self _⟩, ?_, rfl, hks⟩
  simp only [Level.parse]
  rw [parseOperand]
  simp only [hkind, hcall, hname]
  rfl

theorem marked {keys : List Part} (name : String)
    (ih : ∀ p ∈ keys, Completes length .or p.1 p.2) :
    Completes length .operand (.variable name :: Part.bracketed keys)
      (.variable name (Part.trees keys)) := by
  intro ts more hks hstop
  obtain ⟨t, rest, rfl, hkind, hks⟩ := exists_cons_of_kinds hks
  let head : Consumed (t :: rest) Unit := ⟨(), rest, Nat.lt_succ_self _⟩
  obtain ⟨keys, hkeys, hvalue, hrest⟩ := exists_parseAccessors head ih hks (hstop.head_ne rfl)
  refine ⟨keys.map (.variable name), ?_, by rw [← hvalue]; rfl, hrest⟩
  simp only [Level.parse]
  rw [parseOperand]
  simp only [hkind]
  exact map_ok hkeys _

theorem bare {name : String} {keys : List Part} (hname : namedConstant? name = none)
    (ih : ∀ p ∈ keys, Completes length .or p.1 p.2) :
    Completes length .operand (.ident name :: Part.bracketed keys)
      (.variable name (Part.trees keys)) := by
  intro ts more hks hstop
  obtain ⟨t, rest, rfl, hkind, hks⟩ := exists_cons_of_kinds hks
  have hcall : eat .leftParen rest = none := by
    refine eat_eq_none .leftParen hks ?_
    cases keys with
    | nil => exact hstop.head_ne rfl
    | cons p keys => simp [Part.bracketed_cons]
  let head : Consumed (t :: rest) Unit := ⟨(), rest, Nat.lt_succ_self _⟩
  obtain ⟨keys, hkeys, hvalue, hrest⟩ := exists_parseAccessors head ih hks (hstop.head_ne rfl)
  refine ⟨keys.map (.variable name), ?_, by rw [← hvalue]; rfl, hrest⟩
  simp only [Level.parse]
  rw [parseOperand]
  simp only [hkind, hcall, hname]
  exact map_ok hkeys _

theorem array {items : List Part} (trailing : Bool) (hd : ∀ p ∈ items, Derives .item p.1 p.2)
    (ih : ∀ p ∈ items, Completes length .item p.1 p.2) :
    Completes length .operand (.leftBracket :: Part.listed trailing items ++ [.rightBracket])
      (.array (Part.trees items)) := by
  intro ts more hks hstop
  simp only [List.cons_append, List.append_assoc, List.nil_append] at hks
  obtain ⟨t, rest, rfl, hkind, hks⟩ := exists_cons_of_kinds hks
  let head : Consumed (t :: rest) Unit := ⟨(), rest, Nat.lt_succ_self _⟩
  obtain ⟨items, hitems, hvalue, hrest⟩ := exists_parseItems trailing head hd ih hks
  refine ⟨items.map .array, ?_, by rw [← hvalue]; rfl, hrest⟩
  simp only [Level.parse]
  rw [parseOperand]
  simp only [hkind]
  exact map_ok hitems _

theorem word {name : String} (hname : namedConstant? name = none) :
    Completes length .item [.ident name] (.text name) := by
  intro ts more hks hstop
  obtain ⟨⟨kind, start, stop⟩, rest, rfl, rfl, hrest⟩ := exists_cons_of_kinds hks
  have hgroup := opensGroup_eq_false hrest (hstop.head_ne rfl) (hstop.head_ne rfl)
  have hbare : eatBareWord (⟨.ident name, start, stop⟩ :: rest) =
      some ⟨name, rest, Nat.lt_succ_self _⟩ := by
    simp [eatBareWord, hgroup, hname]
  refine ⟨⟨.text name, rest, Nat.lt_succ_self _⟩, ?_, rfl, hrest⟩
  simp only [Level.parse]
  rw [parseItem, hbare]
  rfl

theorem whole {ks : List TokenKind} {e : Expr} (hd : Derives .or ks e)
    (hword : ¬BeginsWithWord ks) (ih : Completes length .or ks e) :
    Completes length .item ks e := by
  intro ts more hks hstop
  obtain ⟨c, hc, hvalue, hrest⟩ := ih _ _ hks hstop.or_of_item
  refine ⟨c, ?_, hvalue, hrest⟩
  simp only [Level.parse] at hc ⊢
  rw [parseItem, eatBareWord_eq_none hd hword hks]
  exact hc

end Completes

theorem Derives.completes {level : Level} {ks : List TokenKind} {e : Expr}
    (h : Derives level ks e) : Completes length level ks e := by
  induction h with
  | or _ _ ihfirst ihparts => exact .or ihfirst ihparts
  | and _ _ ihfirst ihparts => exact .and ihfirst ihparts
  | negation _ ih => exact ih.negation
  | positive hd ih => exact .positive hd ih
  | single _ ih => exact ih.single
  | compared op _ _ ihl ihr => exact .compared op ihl ihr
  | group _ ih => exact ih.group
  | text s => exact .text s
  | number hn => exact .number hn
  | call name hd ih => exact .call name hd ih
  | constant hname => exact .constant hname
  | marked name _ ih => exact .marked name ih
  | bare hname _ ih => exact .bare hname ih
  | array trailing hd ih => exact .array trailing hd ih
  | word hname => exact .word hname
  | whole hd hword ih => exact .whole hd hword ih

end Templating.Expr
