import Mathlib.Data.Prod.Lex
import Templating.Template.Position
import Templating.Text.Utf8

/-!
# Lines and columns

What the search for the line ends of a template finds, said of its bytes. The line of an offset is
one more than the line ends before it, and its column one more than the bytes since its line begins
(`Source.exists_position`); both are counted in 32 bits. In a template of less than four gibibytes a
count can only run over at the end of one that is a single line, or nothing but line ends
(`Overruns`). Everywhere else offsets further on have later positions
(`Source.position_exact`).
-/

namespace Templating

open Text

def lineEnd : UInt8 := '\n'.toUInt8

/-- The line on which an offset stands begins at `start`: no line end stands between them, and one
stands before `start` unless that is the beginning. -/
structure BeginsLine (bytes : List UInt8) (offset start : Nat) : Prop where
  le : start ≤ offset
  behind : start = 0 ∨ bytes[start - 1]? = some lineEnd
  unbroken : ∀ i, start ≤ i → i < offset → bytes[i]? ≠ some lineEnd

namespace BeginsLine

variable {bytes : List UInt8} {i j start start' : Nat}

theorem start_le (h : BeginsLine bytes i start) (h' : BeginsLine bytes i start') :
    start ≤ start' := by
  rcases h.behind with rfl | hend
  · exact Nat.zero_le _
  · by_contra hlt
    have := h.le
    exact h'.unbroken (start - 1) (by omega) (by omega) hend

theorem unique (h : BeginsLine bytes i start) (h' : BeginsLine bytes i start') : start = start' :=
  Nat.le_antisymm (h.start_le h') (h'.start_le h)

theorem extend (h : BeginsLine bytes i start) (hij : i ≤ j)
    (hnone : ∀ k, i ≤ k → k < j → bytes[k]? ≠ some lineEnd) : BeginsLine bytes j start where
  le := Nat.le_trans h.le hij
  behind := h.behind
  unbroken := by
    intro k hk hkj
    rcases Nat.lt_or_ge k i with hlt | hge
    · exact h.unbroken k hk hlt
    · exact hnone k hge hkj

end BeginsLine

/-! ## Line ends among the bytes -/

def lineEndsFrom (offset : Nat) : List UInt8 → List Nat
  | [] => []
  | b :: bytes => (if b = lineEnd then [offset] else []) ++ lineEndsFrom (offset + 1) bytes

theorem lineEndsFrom_append (offset : Nat) (xs ys : List UInt8) :
    lineEndsFrom offset (xs ++ ys) =
      lineEndsFrom offset xs ++ lineEndsFrom (offset + xs.length) ys := by
  induction xs generalizing offset with
  | nil => rfl
  | cons b xs ih =>
    rw [List.cons_append, lineEndsFrom, lineEndsFrom, ih, List.append_assoc, List.length_cons,
      Nat.add_assoc, Nat.add_comm 1]

theorem lineEndsFrom_eq_nil {offset : Nat} {bytes : List UInt8} (h : lineEnd ∉ bytes) :
    lineEndsFrom offset bytes = [] := by
  induction bytes generalizing offset with
  | nil => rfl
  | cons b bytes ih =>
    rw [List.mem_cons, not_or] at h
    rw [lineEndsFrom, if_neg (Ne.symm h.1), ih h.2, List.append_nil]

theorem newlinesFrom_eq (offset : Nat) (cs : List Char) :
    newlinesFrom offset cs = lineEndsFrom offset (utf8 cs) := by
  induction cs generalizing offset with
  | nil => rfl
  | cons c cs ih =>
    rw [newlinesFrom, utf8_cons, lineEndsFrom_append, String.length_utf8EncodeChar, ih]
    congr 1
    by_cases hc : c = '\n'
    · subst hc
      rfl
    · rw [if_neg hc, lineEndsFrom_eq_nil fun hmem => hc (eq_of_toUInt8_mem rfl hmem)]

theorem mem_lineEndsFrom_iff {offset i : Nat} {bytes : List UInt8} :
    i ∈ lineEndsFrom offset bytes ↔ offset ≤ i ∧ bytes[i - offset]? = some lineEnd := by
  induction bytes generalizing offset with
  | nil => simp [lineEndsFrom]
  | cons b bytes ih =>
    rw [lineEndsFrom, List.mem_append, ih]
    rcases Nat.lt_trichotomy i offset with hlt | rfl | hgt
    · have hne : i ≠ offset := Nat.ne_of_lt hlt
      have hnle : ¬offset ≤ i := Nat.not_le_of_lt hlt
      have hnle' : ¬offset + 1 ≤ i := by omega
      split <;> simp [hne, hnle, hnle']
    · have hnle : ¬i + 1 ≤ i := by omega
      split <;> simp_all
    · obtain ⟨k, rfl⟩ := Nat.exists_eq_add_of_lt hgt
      have hne : offset + k + 1 ≠ offset := by omega
      have hsub : offset + k + 1 - offset = k + 1 := by omega
      have hsub' : offset + k + 1 - (offset + 1) = k := by omega
      rw [hsub, hsub', List.getElem?_cons_succ]
      split <;> simp [hne] <;> omega

theorem countP_lineEndsFrom (offset limit : Nat) (bytes : List UInt8) :
    (lineEndsFrom offset bytes).countP (· < limit) =
      (bytes.take (limit - offset)).count lineEnd := by
  induction bytes generalizing offset with
  | nil => simp [lineEndsFrom]
  | cons b bytes ih =>
    rw [lineEndsFrom, List.countP_append, ih]
    rcases Nat.lt_or_ge offset limit with hlt | hge
    · have hsub : limit - offset = limit - (offset + 1) + 1 := by omega
      rw [hsub, List.take_succ_cons, List.count_cons]
      split <;> simp_all [Nat.add_comm]
    · have hsub : limit - offset = 0 := by omega
      have hsub' : limit - (offset + 1) = 0 := by omega
      rw [hsub, hsub']
      split <;> simp_all

theorem Ascending.takeWhile_eq_filter {xs : List Nat} (x : Nat) (h : xs.Pairwise (· < ·)) :
    xs.takeWhile (· < x) = xs.filter (· < x) := by
  induction xs with
  | nil => rfl
  | cons y xs ih =>
    obtain ⟨hfirst, hrest⟩ := List.pairwise_cons.1 h
    by_cases hy : y < x
    · rw [List.takeWhile_cons_of_pos (by simpa using hy), List.filter_cons_of_pos (by simpa using hy),
        ih hrest]
    · have hnone : xs.filter (· < x) = [] := List.filter_eq_nil_iff.2 fun z hz => by
        have := hfirst z hz
        simp only [decide_eq_true_eq]
        omega
      rw [List.takeWhile_cons_of_neg (by simpa using hy), List.filter_cons_of_neg (by simpa using hy),
        hnone]

/-! ## Positions -/

namespace Source

variable {cs : List Char} {offset i j : Nat}

theorem exists_position (cs : List Char) (offset : Nat) :
    ∃ start, BeginsLine (utf8 cs) offset start ∧
      (ofChars cs).position offset =
        { offset := word offset
          line := word (((utf8 cs).take offset).count lineEnd + 1)
          column := word (offset - start + 1) } := by
  have hends : newlinesFrom 0 cs = lineEndsFrom 0 (utf8 cs) := newlinesFrom_eq 0 cs
  have hsorted := pairwise_newlinesFrom 0 cs
  have hcount : ((newlinesFrom 0 cs).filter (· < offset)).length =
      ((utf8 cs).take offset).count lineEnd := by
    rw [← List.countP_eq_length_filter, hends, countP_lineEndsFrom, Nat.sub_zero]
  have hmem : ∀ i, i ∈ (newlinesFrom 0 cs).filter (· < offset) ↔
      (utf8 cs)[i]? = some lineEnd ∧ i < offset := by
    intro i
    rw [List.mem_filter, hends, mem_lineEndsFrom_iff, Nat.sub_zero, decide_eq_true_eq]
    simp
  have hbefore := hsorted.sublist (List.filter_sublist (p := fun i => decide (i < offset)))
  rw [position_ofChars, Ascending.takeWhile_eq_filter offset hsorted, hcount]
  generalize (newlinesFrom 0 cs).filter (· < offset) = before at hmem hbefore
  cases hlast : before.getLast? with
  | none =>
    obtain rfl := List.getLast?_eq_none_iff.1 hlast
    refine ⟨0, ⟨Nat.zero_le _, .inl rfl, fun i _ hi hend => ?_⟩, rfl⟩
    exact List.not_mem_nil ((hmem i).2 ⟨hend, hi⟩)
  | some last =>
    obtain ⟨front, rfl⟩ := List.getLast?_eq_some_iff.1 hlast
    obtain ⟨hend, hlt⟩ := (hmem last).1 (by simp)
    refine ⟨last + 1, ⟨hlt, .inr hend, fun i hi hlt' hend' => ?_⟩, ?_⟩
    · -- A line end behind the last one would stand in the list before it.
      have hin := (hmem i).2 ⟨hend', hlt'⟩
      rcases List.mem_append.1 hin with hfront | hfront
      · have := (List.pairwise_append.1 hbefore).2.2 i hfront last List.mem_cons_self
        omega
      · have := List.mem_singleton.1 hfront
        omega
    · have hcolumn : offset - (last + 1) + 1 = offset - last := by omega
      rw [hcolumn]
      rfl

theorem word_of_lt {n : Nat} (h : n < 4294967296) : word n = n :=
  Nat.mod_eq_of_lt h

theorem offset_position (hsize : byteLength cs < 4294967296) (h : offset ≤ byteLength cs) :
    ((ofChars cs).position offset).offset = offset :=
  word_of_lt (Nat.lt_of_le_of_lt h hsize)

/-- In a template of less than four gibibytes a location tells its offsets. -/
theorem location_inj (hsize : byteLength cs < 4294967296) {start stop start' stop' : Nat}
    (h : (ofChars cs).location start stop = (ofChars cs).location start' stop')
    (hstart : start ≤ byteLength cs) (hstop : stop ≤ byteLength cs)
    (hstart' : start' ≤ byteLength cs) (hstop' : stop' ≤ byteLength cs) :
    start = start' ∧ stop = stop' := by
  have hstarts := congrArg (fun loc : Location => loc.start.offset) h
  have hstops := congrArg (fun loc : Location => loc.stop.offset) h
  simp only [location, offset_position hsize, hstart, hstop, hstart', hstop'] at hstarts hstops
  exact ⟨hstarts, hstops⟩

theorem length_take_utf8 (h : offset ≤ byteLength cs) : ((utf8 cs).take offset).length = offset := by
  rw [List.length_take, length_utf8, Nat.min_eq_left h]

/-- A line end between two offsets counts for the second one. -/
theorem count_take_lt {bytes : List UInt8} {k : Nat} (hik : i ≤ k) (hkj : k < j)
    (hk : bytes[k]? = some lineEnd) :
    (bytes.take i).count lineEnd < (bytes.take j).count lineEnd := by
  have hmem : lineEnd ∈ (bytes.drop i).take (j - i) := by
    refine List.mem_of_getElem? (i := k - i) ?_
    rw [List.getElem?_take_of_lt (by omega), List.getElem?_drop, Nat.add_sub_cancel' hik, hk]
  have hsplit : bytes.take j = bytes.take i ++ (bytes.drop i).take (j - i) := by
    rw [← List.take_add, Nat.add_sub_cancel' (by omega)]
  have hpos := List.count_pos_iff.2 hmem
  rw [hsplit, List.count_append]
  omega

theorem count_take_le (bytes : List UInt8) (hij : i ≤ j) :
    (bytes.take i).count lineEnd ≤ (bytes.take j).count lineEnd :=
  (List.take_sublist_take_left hij).count_le lineEnd

end Source

/-- The end of a text of 4294967295 bytes that is a single line, or nothing but line ends: its
column, or its line, is one more than 32 bits hold. -/
structure Overruns (bytes : List UInt8) (offset : Nat) : Prop where
  offset_eq : offset = 4294967295
  uniform : lineEnd ∉ bytes ∨ ∀ b ∈ bytes, b = lineEnd

namespace Source

variable {cs : List Char} {offset start i j : Nat}

theorem position_of_not_overruns (hsize : byteLength cs < 4294967296) (h : offset ≤ byteLength cs)
    (hover : ¬Overruns (utf8 cs) offset) :
    ∃ start, BeginsLine (utf8 cs) offset start ∧
      (ofChars cs).position offset =
        ⟨offset, ((utf8 cs).take offset).count lineEnd + 1, offset - start + 1⟩ := by
  obtain ⟨start, hstart, hposition⟩ := exists_position cs offset
  have hlength := length_take_utf8 h
  have hcount := List.count_le_length (a := lineEnd) (l := (utf8 cs).take offset)
  have hwhole : offset = 4294967295 → (utf8 cs).take offset = utf8 cs := fun _ =>
    List.take_of_length_le (by rw [length_utf8]; omega)
  have hline : ((utf8 cs).take offset).count lineEnd + 1 < 4294967296 := by
    by_contra hge
    refine hover ⟨by omega, .inr fun b hb => ?_⟩
    rw [← hwhole (by omega)] at hb
    exact (List.count_eq_length.1 (by omega) b hb).symm
  have hcolumn : offset - start + 1 < 4294967296 := by
    by_contra hge
    refine hover ⟨by omega, .inl fun hmem => ?_⟩
    obtain ⟨i, hi, hend⟩ := List.mem_iff_getElem.1 hmem
    rw [length_utf8] at hi
    exact hstart.unbroken i (by omega) (by omega) (List.getElem?_eq_some_iff.2 ⟨_, hend⟩)
  refine ⟨start, hstart, ?_⟩
  rw [hposition, word_of_lt hline, word_of_lt hcolumn, word_of_lt (by omega)]

theorem position_of_overruns (hsize : byteLength cs < 4294967296) (h : offset ≤ byteLength cs)
    (hover : Overruns (utf8 cs) offset) :
    (ofChars cs).position offset = ⟨offset, 1, 0⟩ ∧ lineEnd ∉ utf8 cs ∨
      (ofChars cs).position offset = ⟨offset, 0, 1⟩ ∧ ∀ b ∈ utf8 cs, b = lineEnd := by
  obtain ⟨start, hstart, hposition⟩ := exists_position cs offset
  obtain ⟨rfl, hnone | hall⟩ := hover
  · left
    have hzero : start = 0 := hstart.behind.resolve_right fun hend => hnone (List.mem_of_getElem? hend)
    have hcount : ((utf8 cs).take 4294967295).count lineEnd = 0 :=
      List.count_eq_zero.2 fun hmem => hnone (List.mem_of_mem_take hmem)
    rw [hposition, hcount, hzero]
    exact ⟨rfl, hnone⟩
  · right
    have hlast : start = 4294967295 := by
      by_contra hne
      have hle := hstart.le
      have hlt : start < (utf8 cs).length := by
        rw [length_utf8]
        omega
      refine hstart.unbroken start (Nat.le_refl _) (by omega) ?_
      rw [List.getElem?_eq_getElem hlt, hall _ (List.getElem_mem hlt)]
    have hcount : ((utf8 cs).take 4294967295).count lineEnd = 4294967295 := by
      conv_rhs => rw [← length_take_utf8 h]
      exact List.count_eq_length.2 fun b hb => (hall b (List.mem_of_mem_take hb)).symm
    rw [hposition, hcount, hlast]
    exact ⟨rfl, hall⟩

theorem lex_position (hsize : byteLength cs < 4294967296) (hij : i < j) (h : j ≤ byteLength cs)
    (hover : ¬Overruns (utf8 cs) j) :
    toLex (((ofChars cs).position i).line, ((ofChars cs).position i).column) <
      toLex (((ofChars cs).position j).line, ((ofChars cs).position j).column) := by
  have hover' : ¬Overruns (utf8 cs) i := fun hi => by
    have := hi.offset_eq
    omega
  obtain ⟨start, hstart, hi⟩ := position_of_not_overruns hsize (by omega) hover'
  obtain ⟨start', hstart', hj⟩ := position_of_not_overruns hsize h hover
  rw [hi, hj, Prod.Lex.toLex_lt_toLex]
  by_cases hend : ∃ k, i ≤ k ∧ k < j ∧ (utf8 cs)[k]? = some lineEnd
  · obtain ⟨k, hik, hkj, hk⟩ := hend
    exact .inl (Nat.succ_lt_succ (count_take_lt hik hkj hk))
  · -- Without a line end between them, both stand on one line.
    have hsame := (hstart.extend (Nat.le_of_lt hij) fun k hik hkj hk =>
      hend ⟨k, hik, hkj, hk⟩).unique hstart'
    have := hstart.le
    rcases Nat.lt_or_eq_of_le (count_take_le (utf8 cs) (Nat.le_of_lt hij)) with hlt | heq
    · exact .inl (Nat.succ_lt_succ hlt)
    · exact .inr ⟨congrArg (· + 1) heq, by simp only; omega⟩

/-- Offsets on one line have different columns, also where one of them does not fit. -/
theorem column_ne (hsize : byteLength cs < 4294967296) (hij : i < j) (h : j ≤ byteLength cs)
    (hline : ((ofChars cs).position i).line = ((ofChars cs).position j).line) :
    ((ofChars cs).position i).column ≠ ((ofChars cs).position j).column := by
  intro hcolumn
  by_cases hover : Overruns (utf8 cs) j
  · have hover' : ¬Overruns (utf8 cs) i := fun hi => by
      have := hi.offset_eq
      have := hover.offset_eq
      omega
    obtain ⟨start, -, hi⟩ := position_of_not_overruns hsize (by omega) hover'
    rw [hi] at hline hcolumn
    rcases position_of_overruns hsize h hover with ⟨hj, -⟩ | ⟨hj, -⟩
    · rw [hj] at hcolumn
      cases hcolumn
    · rw [hj] at hline
      cases hline
  · have hlt := lex_position hsize hij h hover
    rw [hline, hcolumn] at hlt
    exact absurd hlt (lt_irrefl _)

/-- Lines and columns are exact wherever they fit into 32 bits; together they tell offsets apart, and
further on in the template they are later. -/
theorem position_exact {cs : List Char} (hsize : byteLength cs < 4294967296) :
    (∀ offset ≤ byteLength cs,
      (¬Overruns (utf8 cs) offset → ∃ start, BeginsLine (utf8 cs) offset start ∧
        (ofChars cs).position offset =
          ⟨offset, ((utf8 cs).take offset).count lineEnd + 1, offset - start + 1⟩) ∧
      (Overruns (utf8 cs) offset →
        (ofChars cs).position offset = ⟨offset, 1, 0⟩ ∧ lineEnd ∉ utf8 cs ∨
          (ofChars cs).position offset = ⟨offset, 0, 1⟩ ∧ ∀ b ∈ utf8 cs, b = lineEnd)) ∧
    (∀ i ≤ byteLength cs, ∀ j ≤ byteLength cs,
      ((ofChars cs).position i).line = ((ofChars cs).position j).line →
      ((ofChars cs).position i).column = ((ofChars cs).position j).column → i = j) ∧
    ∀ i j, i < j → j ≤ byteLength cs → ¬Overruns (utf8 cs) j →
      toLex (((ofChars cs).position i).line, ((ofChars cs).position i).column) <
        toLex (((ofChars cs).position j).line, ((ofChars cs).position j).column) := by
  refine ⟨fun offset h => ⟨position_of_not_overruns hsize h, position_of_overruns hsize h⟩, ?_,
    fun i j hij h hover => lex_position hsize hij h hover⟩
  intro i hi j hj hline hcolumn
  rcases Nat.lt_trichotomy i j with hij | rfl | hji
  · exact absurd hcolumn (column_ne hsize hij hj hline)
  · rfl
  · exact absurd hcolumn.symm (column_ne hsize hji hi hline.symm)

def twoLines : List Char := ['é', '\n', 'a']

theorem position_exact_twoLines :
    byteLength twoLines < 4294967296 ∧
      (∃ start, BeginsLine (utf8 twoLines) 4 start ∧
        (ofChars twoLines).position 4 = ⟨4, 2, 4 - start + 1⟩) ∧
      toLex (((ofChars twoLines).position 2).line, ((ofChars twoLines).position 2).column) <
        toLex (((ofChars twoLines).position 3).line, ((ofChars twoLines).position 3).column) := by
  have hsize : byteLength twoLines < 4294967296 := by decide
  have hover : ∀ offset ≤ 4, ¬Overruns (utf8 twoLines) offset := fun offset hle hover => by
    have := hover.offset_eq
    omega
  exact ⟨hsize, ((position_exact hsize).1 4 (by decide)).1 (hover 4 (by decide)),
    (position_exact hsize).2.2 2 3 (by decide) (by decide) (hover 3 (by decide))⟩

def oneLine (n : Nat) : List Char :=
  List.replicate n 'a'

theorem byteLength_oneLine (n : Nat) : byteLength (oneLine n) = n := by
  induction n with
  | zero => rfl
  | succ n ih =>
    rw [oneLine] at ih
    rw [oneLine, List.replicate_succ, byteLength_cons, ih, Nat.add_comm]
    rfl

theorem lineEnd_not_mem_oneLine (n : Nat) : lineEnd ∉ utf8 (oneLine n) := by
  intro hmem
  obtain ⟨c, hc, hend⟩ := List.mem_flatMap.1 hmem
  have hnewline := eq_of_toUInt8_mem rfl hend
  rw [List.eq_of_mem_replicate hc] at hnewline
  exact absurd hnewline (by decide)

/-- At the end of the longest single line the column does not fit. -/
theorem not_position_exact_oneLine :
    byteLength (oneLine 4294967295) < 4294967296 ∧
      4294967295 ≤ byteLength (oneLine 4294967295) ∧
      (¬∃ start, BeginsLine (utf8 (oneLine 4294967295)) 4294967295 start ∧
        ((ofChars (oneLine 4294967295)).position 4294967295).column = 4294967295 - start + 1) ∧
      ¬toLex (((ofChars (oneLine 4294967295)).position 4294967294).line,
            ((ofChars (oneLine 4294967295)).position 4294967294).column) <
          toLex (((ofChars (oneLine 4294967295)).position 4294967295).line,
            ((ofChars (oneLine 4294967295)).position 4294967295).column) := by
  have hlength := byteLength_oneLine 4294967295
  have hsize : byteLength (oneLine 4294967295) < 4294967296 := by omega
  have hnone := lineEnd_not_mem_oneLine 4294967295
  generalize oneLine 4294967295 = cs at hlength hsize hnone ⊢
  have hend : (ofChars cs).position 4294967295 = ⟨4294967295, 1, 0⟩ := by
    rcases position_of_overruns hsize (Nat.le_of_eq hlength.symm) ⟨rfl, .inl hnone⟩ with
      ⟨hposition, -⟩ | ⟨-, hall⟩
    · exact hposition
    · have hpos : 0 < (utf8 cs).length := by
        rw [length_utf8]
        omega
      have hmem := List.getElem_mem hpos
      exact absurd (hall _ hmem ▸ hmem) hnone
  have hover : ¬Overruns (utf8 cs) 4294967294 := fun h => absurd h.offset_eq (by decide)
  obtain ⟨start, -, hbefore⟩ := position_of_not_overruns hsize (by omega) hover
  have hcount : ((utf8 cs).take 4294967294).count lineEnd = 0 :=
    List.count_eq_zero.2 fun hmem => hnone (List.mem_of_mem_take hmem)
  refine ⟨hsize, Nat.le_of_eq hlength.symm, ?_, ?_⟩
  · rintro ⟨start, -, hcolumn⟩
    rw [hend] at hcolumn
    cases hcolumn
  · rw [hend, hbefore, hcount, Prod.Lex.toLex_lt_toLex]
    rintro (hlt | ⟨-, hlt⟩)
    · exact Nat.lt_irrefl 1 hlt
    · exact Nat.not_lt_zero _ hlt

end Source

end Templating
