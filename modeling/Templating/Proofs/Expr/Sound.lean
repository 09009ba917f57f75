import Templating.Proofs.Expr.Grammar

/-!
# What the expression parser reads is derivable

Every function of the parser takes some tokens off the front of a list. Their kinds are derivable at
the level of the function, with the tree that it gives. The theorems call each other as the functions
do, and end for the same reason: each call is about a shorter list or a tighter level.
-/

namespace Templating.Expr

def kinds (ts : List Token) : List TokenKind :=
  ts.map (·.kind)

@[simp] theorem kinds_nil : kinds [] = [] := rfl

@[simp] theorem kinds_cons (t : Token) (ts : List Token) : kinds (t :: ts) = t.kind :: kinds ts :=
  rfl

theorem kinds_of_eat {kind : TokenKind} {ts : List Token} {c : Consumed ts Unit}
    (h : eat kind ts = some c) : kinds ts = kind :: kinds c.rest := by
  cases ts with
  | nil => cases h
  | cons t ts =>
    simp only [eat] at h
    split at h
    · rename_i hk
      cases h
      rw [kinds_cons, hk]
    · cases h

theorem kinds_of_expect {length : Nat} {kind : TokenKind} {fault : ExprFault} {ts : List Token}
    {c : Consumed ts Unit} (h : expect length kind fault ts = .ok c) :
    kinds ts = kind :: kinds c.rest := by
  unfold expect at h
  split at h
  · rename_i c' he
    cases h
    exact kinds_of_eat he
  · cases h

theorem kinds_of_eatComparison {ts : List Token} {c : Consumed ts Comparison}
    (h : eatComparison ts = some c) : kinds ts = .comparison c.value :: kinds c.rest := by
  unfold eatComparison at h
  split at h
  · cases h
    rfl
  · cases h

theorem opensGroup_of_kinds {ts : List Token} {kind : TokenKind} {more : List TokenKind}
    (h : kinds ts = kind :: more) :
    opensGroup ts = (kind == .leftParen || kind == .leftBracket) := by
  cases ts with
  | nil => cases h
  | cons t ts =>
    rw [kinds_cons] at h
    obtain ⟨rfl, -⟩ := List.cons.inj h
    rfl

theorem ok_of_map {α β : Type} {ts : List Token} {x : Parsed ts α} {f : α → β}
    {c : Consumed ts β} (h : x.map (·.map f) = .ok c) : ∃ c', x = .ok c' ∧ c = c'.map f := by
  cases x with
  | error e => cases h
  | ok c' =>
    cases h
    exact ⟨c', rfl, rfl⟩

/-- The tokens of `ts` up to `rest` are an expression of the level with the tree `e`. -/
def Reads (level : Level) (ts rest : List Token) (e : Expr) : Prop :=
  ∃ ks, kinds ts = ks ++ kinds rest ∧ Derives level ks e

def ReadsParts (level : Level) (text : List Part → List TokenKind) (ts rest : List Token)
    (parts : List Part) : Prop :=
  kinds ts = text parts ++ kinds rest ∧ ∀ p ∈ parts, Derives level p.1 p.2

theorem Reads.item_of_word {ts : List Token} {c : Consumed ts String}
    (h : eatBareWord ts = some c) : Reads .item ts c.rest (.text c.value) := by
  unfold eatBareWord at h
  split at h
  · split at h
    · rename_i hword
      cases h
      rw [Bool.and_eq_true, Option.isNone_iff_eq_none] at hword
      exact ⟨_, rfl, .word hword.2⟩
    · cases h
  · cases h

/-- The word at the front of an expression is followed in the text by what follows it in the
expression, unless it is the whole of it. -/
theorem Reads.item_of_or {ts rest : List Token} {e : Expr} (h : Reads .or ts rest e)
    (hword : eatBareWord ts = none) (hrest : opensGroup rest = false) : Reads .item ts rest e := by
  obtain ⟨ks, hks, hd⟩ := h
  refine ⟨ks, hks, .whole hd ?_⟩
  rintro ⟨word, tail, rfl, hconst, hparen, hbracket⟩
  cases ts with
  | nil => cases hks
  | cons t ts =>
    rw [kinds_cons, List.cons_append] at hks
    obtain ⟨hkind, htail⟩ := List.cons.inj hks
    have hgroup : opensGroup ts = false := by
      cases tail with
      | nil =>
        rw [List.nil_append] at htail
        cases rest with
        | nil =>
          cases ts with
          | nil => rfl
          | cons => cases htail
        | cons r rest => rw [opensGroup_of_kinds htail]; exact hrest
      | cons k tail =>
        rw [opensGroup_of_kinds htail]
        simp_all
    obtain ⟨kind, start, stop⟩ := t
    cases hkind
    simp [eatBareWord, hgroup, hconst] at hword

mutual

theorem parseOr_reads {length : Nat} {ts : List Token} {c : Consumed ts Expr}
    (h : parseOr length ts = .ok c) : Reads .or ts c.rest c.value := by
  rw [parseOr] at h
  split at h
  · cases h
  · rename_i left hleft
    have hshorter := left.shorter
    obtain ⟨ks, hks, hd⟩ := parseAnd_reads hleft
    obtain ⟨parts, ⟨hparts, hall⟩, hvalue⟩ := continueOr_reads h
    exact ⟨ks ++ Part.chained .orOr parts, by rw [hks, hparts, List.append_assoc],
      hvalue ▸ .or hd hall⟩
termination_by (ts.length, 6)

theorem continueOr_reads {length : Nat} {ts : List Token} {left c : Consumed ts Expr}
    (h : continueOr length ts left = .ok c) :
    ∃ parts, ReadsParts .and (Part.chained .orOr) left.rest c.rest parts ∧
      c.value = Part.folded .or left.value parts := by
  rw [continueOr] at h
  split at h
  · cases h
    exact ⟨[], ⟨rfl, by simp⟩, rfl⟩
  · rename_i mark hmark
    split at h
    · cases h
    · rename_i right hright
      have hmarked := mark.shorter
      have hshorter := (mark.step right ()).shorter
      obtain ⟨ks, hks, hd⟩ := parseAnd_reads hright
      obtain ⟨parts, ⟨hparts, hall⟩, hvalue⟩ := continueOr_reads h
      refine ⟨(ks, right.value) :: parts, ⟨?_, List.forall_mem_cons.2 ⟨hd, hall⟩⟩, hvalue⟩
      rw [Consumed.step_rest, Consumed.step_rest] at hparts
      rw [kinds_of_eat hmark, hks, hparts, Part.chained_cons, List.cons_append, List.append_assoc]
termination_by (left.rest.length, 7)

theorem parseAnd_reads {length : Nat} {ts : List Token} {c : Consumed ts Expr}
    (h : parseAnd length ts = .ok c) : Reads .and ts c.rest c.value := by
  rw [parseAnd] at h
  split at h
  · cases h
  · rename_i left hleft
    have hshorter := left.shorter
    obtain ⟨ks, hks, hd⟩ := parseNot_reads hleft
    obtain ⟨parts, ⟨hparts, hall⟩, hvalue⟩ := continueAnd_reads h
    exact ⟨ks ++ Part.chained .andAnd parts, by rw [hks, hparts, List.append_assoc],
      hvalue ▸ .and hd hall⟩
termination_by (ts.length, 4)

theorem continueAnd_reads {length : Nat} {ts : List Token} {left c : Consumed ts Expr}
    (h : continueAnd length ts left = .ok c) :
    ∃ parts, ReadsParts .not (Part.chained .andAnd) left.rest c.rest parts ∧
      c.value = Part.folded .and left.value parts := by
  rw [continueAnd] at h
  split at h
  · cases h
    exact ⟨[], ⟨rfl, by simp⟩, rfl⟩
  · rename_i mark hmark
    split at h
    · cases h
    · rename_i right hright
      have hmarked := mark.shorter
      have hshorter := (mark.step right ()).shorter
      obtain ⟨ks, hks, hd⟩ := parseNot_reads hright
      obtain ⟨parts, ⟨hparts, hall⟩, hvalue⟩ := continueAnd_reads h
      refine ⟨(ks, right.value) :: parts, ⟨?_, List.forall_mem_cons.2 ⟨hd, hall⟩⟩, hvalue⟩
      rw [Consumed.step_rest, Consumed.step_rest] at hparts
      rw [kinds_of_eat hmark, hks, hparts, Part.chained_cons, List.cons_append, List.append_assoc]
termination_by (left.rest.length, 5)

theorem parseNot_reads {length : Nat} {ts : List Token} {c : Consumed ts Expr}
    (h : parseNot length ts = .ok c) : Reads .not ts c.rest c.value := by
  rw [parseNot] at h
  split at h
  · obtain ⟨ks, hks, hd⟩ := parseComparison_reads h
    exact ⟨ks, hks, .positive hd⟩
  · rename_i mark hmark
    split at h
    · cases h
    · rename_i operand hoperand
      cases h
      have hshorter := mark.shorter
      obtain ⟨ks, hks, hd⟩ := parseNot_reads hoperand
      exact ⟨.bang :: ks, by rw [kinds_of_eat hmark, hks]; rfl, .negation hd⟩
termination_by (ts.length, 3)

theorem parseComparison_reads {length : Nat} {ts : List Token} {c : Consumed ts Expr}
    (h : parseComparison length ts = .ok c) : Reads .comparison ts c.rest c.value := by
  rw [parseComparison] at h
  split at h
  · cases h
  · rename_i left hleft
    obtain ⟨ks, hks, hl⟩ := parseOperand_reads hleft
    split at h
    · cases h
      exact ⟨ks, hks, .single hl⟩
    · rename_i op hop
      split at h
      · cases h
      · rename_i right hright
        cases h
        have hshorter := (left.step op ()).shorter
        obtain ⟨ls, hls, hr⟩ := parseOperand_reads hright
        refine ⟨ks ++ .comparison op.value :: ls, ?_, .compared op.value hl hr⟩
        rw [hks, kinds_of_eatComparison hop, hls, List.append_assoc]
        rfl
termination_by (ts.length, 2)

theorem parseOperand_reads {length : Nat} {ts : List Token} {c : Consumed ts Expr}
    (h : parseOperand length ts = .ok c) : Reads .operand ts c.rest c.value := by
  cases ts with
  | nil =>
    rw [parseOperand] at h
    cases h
  | cons t rest =>
    rw [parseOperand] at h
    unfold Reads
    rw [kinds_cons]
    have hrest : rest.length < (t :: rest).length := Nat.lt_succ_self _
    split at h
    · rename_i hkind
      split at h
      · cases h
      · rename_i inner hinner
        split at h
        · cases h
        · rename_i closing hclosing
          cases h
          obtain ⟨ks, hks, hd⟩ := parseOr_reads hinner
          refine ⟨_, ?_, .group hd⟩
          rw [hkind, hks, kinds_of_expect hclosing]
          simp
    · rename_i hkind
      obtain ⟨items, hitems, rfl⟩ := ok_of_map h
      obtain ⟨parts, trailing, ⟨hparts, hall⟩, hvalue⟩ := parseItems_reads hitems
      rw [Consumed.map_value, hvalue]
      refine ⟨_, ?_, .array trailing hall⟩
      rw [hkind, hparts]
      rfl
    · rename_i s hkind
      cases h
      exact ⟨_, by rw [hkind]; rfl, .text s⟩
    · rename_i spelling hkind
      split at h
      · rename_i n hn
        cases h
        exact ⟨_, by rw [hkind]; rfl, .number hn⟩
      · cases h
    · rename_i name hkind
      obtain ⟨keys, hkeys, rfl⟩ := ok_of_map h
      obtain ⟨parts, ⟨hparts, hall⟩, hvalue⟩ := parseAccessors_reads hkeys
      rw [Consumed.map_value, hvalue]
      refine ⟨_, ?_, .marked name hall⟩
      rw [hkind, hparts]
      rfl
    · rename_i name hkind
      split at h
      · rename_i opening hopening
        have hopened : opening.rest.length < (t :: rest).length :=
          Nat.lt_succ_of_lt opening.shorter
        obtain ⟨args, hargs, rfl⟩ := ok_of_map h
        obtain ⟨parts, ⟨hparts, hall⟩, hvalue⟩ := parseArgs_reads hargs
        rw [Consumed.step_rest] at hparts
        rw [Consumed.map_value, hvalue]
        refine ⟨_, ?_, .call name hall⟩
        rw [hkind, kinds_of_eat hopening, hparts]
        rfl
      · split at h
        · rename_i value hvalue
          cases h
          exact ⟨_, by rw [hkind]; rfl, .constant hvalue⟩
        · rename_i hname
          obtain ⟨keys, hkeys, rfl⟩ := ok_of_map h
          obtain ⟨parts, ⟨hparts, hall⟩, hvalue⟩ := parseAccessors_reads hkeys
          rw [Consumed.map_value, hvalue]
          refine ⟨_, ?_, .bare hname hall⟩
          rw [hkind, hparts]
          rfl
    · cases h
termination_by (ts.length, 1)

theorem parseAccessors_reads {length : Nat} {ts : List Token} {place : Consumed ts Unit}
    {c : Consumed ts (List Expr)} (h : parseAccessors length ts place = .ok c) :
    ∃ parts, ReadsParts .or Part.bracketed place.rest c.rest parts ∧
      c.value = Part.trees parts := by
  rw [parseAccessors] at h
  split at h
  · cases h
    exact ⟨[], ⟨rfl, by simp⟩, rfl⟩
  · rename_i opening hopening
    split at h
    · cases h
    · rename_i key hkey
      split at h
      · cases h
      · rename_i closing hclosing
        have hopened := opening.shorter
        have hshorter := (opening.step (key.step closing ()) ()).shorter
        obtain ⟨keys, hkeys, rfl⟩ := ok_of_map h
        obtain ⟨ks, hks, hd⟩ := parseOr_reads hkey
        obtain ⟨parts, ⟨hparts, hall⟩, hvalue⟩ := parseAccessors_reads hkeys
        refine ⟨(ks, key.value) :: parts, ⟨?_, List.forall_mem_cons.2 ⟨hd, hall⟩⟩,
          congrArg (key.value :: ·) hvalue⟩
        simp only [Consumed.step_rest] at hparts
        rw [kinds_of_eat hopening, hks, kinds_of_expect hclosing, hparts, Part.bracketed_cons]
        simp
termination_by (place.rest.length, 7)

theorem parseItem_reads {length : Nat} {ts : List Token} {c : Consumed ts Expr}
    (h : parseItem length ts = .ok c) (hrest : opensGroup c.rest = false) :
    Reads .item ts c.rest c.value := by
  rw [parseItem] at h
  split at h
  · rename_i word hword
    cases h
    exact .item_of_word hword
  · rename_i hword
    exact (parseOr_reads h).item_of_or hword hrest
termination_by (ts.length, 7)

theorem parseItems_reads {length : Nat} {ts : List Token} {place : Consumed ts Unit}
    {c : Consumed ts (List Expr)} (h : parseItems length ts place = .ok c) :
    ∃ parts trailing,
      ReadsParts .item (fun parts => Part.listed trailing parts ++ [.rightBracket])
        place.rest c.rest parts ∧ c.value = Part.trees parts := by
  rw [parseItems] at h
  split at h
  · rename_i closing hclosing
    cases h
    exact ⟨[], false, ⟨kinds_of_eat hclosing, by simp⟩, rfl⟩
  · split at h
    · cases h
    · rename_i item hitem
      split at h
      · rename_i comma hcomma
        have hgroup := opensGroup_of_kinds (kinds_of_eat hcomma)
        have hshorter := (item.step comma ()).shorter
        obtain ⟨ks, hks, hd⟩ := parseItem_reads hitem hgroup
        obtain ⟨items, hitems, rfl⟩ := ok_of_map h
        obtain ⟨parts, trailing, ⟨hparts, hall⟩, hvalue⟩ := parseItems_reads hitems
        simp only [Consumed.step_rest] at hparts
        rw [kinds_of_eat hcomma, hparts] at hks
        -- a comma with no item behind it is the one that may follow the last item
        cases parts with
        | nil =>
          refine ⟨[(ks, item.value)], true, ⟨?_, by simpa using hd⟩,
            congrArg (item.value :: ·) hvalue⟩
          rw [hks]
          simp [Part.listed]
        | cons p parts =>
          refine ⟨(ks, item.value) :: p :: parts, trailing, ⟨?_, List.forall_mem_cons.2 ⟨hd, hall⟩⟩,
            congrArg (item.value :: ·) hvalue⟩
          rw [hks]
          simp [Part.listed]
      · split at h
        · cases h
        · rename_i closing hclosing
          cases h
          have hgroup := opensGroup_of_kinds (kinds_of_expect hclosing)
          obtain ⟨ks, hks, hd⟩ := parseItem_reads hitem hgroup
          refine ⟨[(ks, item.value)], false, ⟨?_, by simpa using hd⟩, rfl⟩
          rw [hks, kinds_of_expect hclosing]
          simp [Part.listed]
termination_by (place.rest.length, 8)

theorem parseArgs_reads {length : Nat} {ts : List Token} {place : Consumed ts Unit}
    {c : Consumed ts (List Expr)} (h : parseArgs length ts place = .ok c) :
    ∃ parts, ReadsParts .or (fun parts => Part.listed false parts ++ [.rightParen])
      place.rest c.rest parts ∧ c.value = Part.trees parts := by
  rw [parseArgs] at h
  split at h
  · rename_i closing hclosing
    cases h
    exact ⟨[], ⟨kinds_of_eat hclosing, by simp⟩, rfl⟩
  · obtain ⟨p, parts, hparts⟩ := parseArgList_reads h
    exact ⟨p :: parts, hparts⟩
termination_by (place.rest.length, 9)

theorem parseArgList_reads {length : Nat} {ts : List Token} {place : Consumed ts Unit}
    {c : Consumed ts (List Expr)} (h : parseArgList length ts place = .ok c) :
    ∃ p parts, ReadsParts .or (fun parts => Part.listed false parts ++ [.rightParen])
      place.rest c.rest (p :: parts) ∧ c.value = Part.trees (p :: parts) := by
  rw [parseArgList] at h
  split at h
  · cases h
  · rename_i arg harg
    obtain ⟨ks, hks, hd⟩ := parseOr_reads harg
    split at h
    · rename_i closing hclosing
      cases h
      refine ⟨(ks, arg.value), [], ⟨?_, by simpa using hd⟩, rfl⟩
      rw [hks, kinds_of_eat hclosing]
      simp [Part.listed]
    · split at h
      · cases h
      · rename_i comma hcomma
        have hshorter := (arg.step comma ()).shorter
        obtain ⟨args, hargs, rfl⟩ := ok_of_map h
        obtain ⟨p, parts, ⟨hparts, hall⟩, hvalue⟩ := parseArgList_reads hargs
        simp only [Consumed.step_rest] at hparts
        refine ⟨(ks, arg.value), p :: parts, ⟨?_, List.forall_mem_cons.2 ⟨hd, hall⟩⟩,
          congrArg (arg.value :: ·) hvalue⟩
        rw [hks, kinds_of_expect hcomma, hparts]
        simp [Part.listed]
termination_by (place.rest.length, 8)

end

end Templating.Expr
