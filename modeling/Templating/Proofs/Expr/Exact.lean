import Templating.Proofs.Expr.Complete

/-!
# The expression parser decides the grammar

A whole text is read as an expression when its tokens are derivable, and as no other tree. The
header of a loop is an expression, the word `as`, and the names that the loop binds.
-/

namespace Templating.Expr

def LoopHeader.names (header : LoopHeader) : List TokenKind :=
  match header.key with
  | none => [.variable header.item]
  | some key => [.variable key, .fatArrow, .variable header.item]

variable {length : Nat} {ts : List Token}

theorem kinds_eq_nil {ts : List Token} (h : kinds ts = []) : ts = [] :=
  List.map_eq_nil_iff.1 h

theorem exists_kinds_eq (ks : List TokenKind) : ∃ ts, kinds ts = ks := by
  refine ⟨ks.map fun k => ⟨k, 0, 0⟩, ?_⟩
  rw [kinds, List.map_map]
  exact List.map_id ks

theorem Derives.exists_parseOr (length : Nat) {ks more : List TokenKind} {e : Expr}
    (h : Derives .or ks e) (hks : kinds ts = ks ++ more) (hstop : Level.or.Stops more) :
    ∃ c, parseOr length ts = .ok c ∧ c.value = e ∧ kinds c.rest = more :=
  h.completes ts more hks hstop

theorem Derives.unique {ks : List TokenKind} {e e' : Expr} (h : Derives .or ks e)
    (h' : Derives .or ks e') : e = e' := by
  obtain ⟨ts, rfl⟩ := exists_kinds_eq ks
  have hks := (List.append_nil (kinds ts)).symm
  obtain ⟨c, hc, hvalue, -⟩ := h.exists_parseOr 0 hks (Level.stops_nil _)
  obtain ⟨c', hc', hvalue', -⟩ := h'.exists_parseOr 0 hks (Level.stops_nil _)
  rw [hc] at hc'
  cases hc'
  rw [← hvalue, ← hvalue']

theorem finish_eq_ok_iff {α : Type} {value value' : α} :
    finish length value ts = .ok value' ↔ ts = [] ∧ value = value' := by
  cases ts with
  | nil => simp [finish]
  | cons t ts => simp [finish, faultAt]

theorem parse?_eq_ok_iff {source : String} {e : Expr} :
    parse? source = .ok e ↔ ∃ ts, tokens source = .ok ts ∧ Derives .or (kinds ts) e := by
  constructor
  · intro h
    unfold parse? at h
    split at h
    · cases h
    · rename_i ts hts
      split at h
      · cases h
      · rename_i c hc
        obtain ⟨hrest, rfl⟩ := finish_eq_ok_iff.1 h
        obtain ⟨ks, hks, hd⟩ := parseOr_reads hc
        rw [hrest, kinds_nil, List.append_nil] at hks
        exact ⟨ts, hts, hks ▸ hd⟩
  · rintro ⟨ts, hts, hd⟩
    obtain ⟨c, hc, hvalue, hrest⟩ := hd.exists_parseOr source.utf8ByteSize
      (List.append_nil (kinds ts)).symm (Level.stops_nil _)
    unfold parse?
    rw [hts]
    simp only [hc]
    exact finish_eq_ok_iff.2 ⟨kinds_eq_nil hrest, hvalue⟩

theorem kinds_of_expectVariable {c : Consumed ts String} (h : expectVariable length ts = .ok c) :
    kinds ts = .variable c.value :: kinds c.rest := by
  unfold expectVariable at h
  split at h
  · cases h
    rfl
  · cases h

theorem exists_expectVariable (length : Nat) {name : String} {more : List TokenKind}
    (h : kinds ts = .variable name :: more) :
    ∃ c, expectVariable length ts = .ok c ∧ c.value = name ∧ kinds c.rest = more := by
  obtain ⟨⟨kind, start, stop⟩, rest, rfl, rfl, hrest⟩ := exists_cons_of_kinds h
  exact ⟨_, rfl, rfl, hrest⟩

theorem kinds_of_expectAs {c : Consumed ts Unit} (h : expectAs length ts = .ok c) :
    ∃ word, word.toLower = "as" ∧ kinds ts = .ident word :: kinds c.rest := by
  unfold expectAs at h
  split at h
  · rename_i word start stop rest
    split at h
    · rename_i has
      cases h
      exact ⟨word, has, rfl⟩
    · cases h
  · cases h

theorem exists_expectAs (length : Nat) {word : String} {more : List TokenKind}
    (has : word.toLower = "as") (h : kinds ts = .ident word :: more) :
    ∃ c, expectAs length ts = .ok c ∧ kinds c.rest = more := by
  obtain ⟨⟨kind, start, stop⟩, rest, rfl, rfl, hrest⟩ := exists_cons_of_kinds h
  exact ⟨⟨(), rest, Nat.lt_succ_self _⟩, by simp only [expectAs, if_pos has], hrest⟩

theorem parseBindings_eq_ok_iff {e : Expr} {header : LoopHeader} :
    parseBindings length e ts = .ok header ↔ kinds ts = header.names ∧ header.source = e := by
  constructor
  · intro h
    unfold parseBindings at h
    split at h
    · cases h
    · rename_i first hfirst
      have hks := kinds_of_expectVariable hfirst
      split at h
      · obtain ⟨hrest, rfl⟩ := finish_eq_ok_iff.1 h
        rw [hrest] at hks
        exact ⟨hks, rfl⟩
      · rename_i arrow harrow
        split at h
        · cases h
        · rename_i item hitem
          obtain ⟨hrest, rfl⟩ := finish_eq_ok_iff.1 h
          rw [kinds_of_eat harrow, kinds_of_expectVariable hitem, hrest] at hks
          exact ⟨hks, rfl⟩
  · rintro ⟨hks, rfl⟩
    obtain ⟨source, key, item⟩ := header
    cases key with
    | none =>
      obtain ⟨first, hfirst, rfl, hrest⟩ := exists_expectVariable length hks
      have harrow := eat_eq_none .fatArrow hrest (by simp)
      unfold parseBindings
      rw [hfirst]
      simp only [harrow]
      exact finish_eq_ok_iff.2 ⟨kinds_eq_nil hrest, rfl⟩
    | some key =>
      obtain ⟨first, hfirst, rfl, hfrest⟩ := exists_expectVariable length hks
      obtain ⟨arrow, harrow, harest⟩ := exists_eat hfrest
      obtain ⟨last, hlast, rfl, hrest⟩ := exists_expectVariable length harest
      unfold parseBindings
      rw [hfirst]
      simp only [harrow, hlast]
      exact finish_eq_ok_iff.2 ⟨kinds_eq_nil hrest, rfl⟩

theorem parseLoopHeader?_eq_ok_iff {source : String} {header : LoopHeader} :
    parseLoopHeader? source = .ok header ↔
      ∃ ts ks word, tokens source = .ok ts ∧ kinds ts = ks ++ .ident word :: header.names ∧
        word.toLower = "as" ∧ Derives .or ks header.source := by
  constructor
  · intro h
    unfold parseLoopHeader? at h
    split at h
    · cases h
    · rename_i ts hts
      split at h
      · cases h
      · rename_i c hc
        split at h
        · cases h
        · rename_i as has
          obtain ⟨ks, hks, hd⟩ := parseOr_reads hc
          obtain ⟨word, hword, hwrest⟩ := kinds_of_expectAs has
          obtain ⟨hnames, hsource⟩ := parseBindings_eq_ok_iff.1 h
          refine ⟨ts, ks, word, hts, ?_, hword, hsource ▸ hd⟩
          rw [hks, hwrest, hnames]
  · rintro ⟨ts, ks, word, hts, hks, hword, hd⟩
    obtain ⟨c, hc, hvalue, hrest⟩ :=
      hd.exists_parseOr source.utf8ByteSize hks (Level.stops_cons rfl _)
    obtain ⟨as, has, hnames⟩ := exists_expectAs source.utf8ByteSize hword hrest
    unfold parseLoopHeader?
    rw [hts]
    simp only [hc, has]
    exact parseBindings_eq_ok_iff.2 ⟨hnames, hvalue.symm⟩

/-- A text is an expression when all of its tokens derive one, and the tree is then the only one
that they derive. It heads a loop when its tokens are those of an expression, the word `as` and the
names of what the loop binds. -/
theorem parsed_iff_derives (source : String) :
    (∀ e, parse? source = .ok e ↔ ∃ ts, tokens source = .ok ts ∧ Derives .or (kinds ts) e) ∧
      (∀ ks e e', Derives .or ks e → Derives .or ks e' → e = e') ∧
      ∀ header, parseLoopHeader? source = .ok header ↔
        ∃ ts ks word, tokens source = .ok ts ∧ kinds ts = ks ++ .ident word :: header.names ∧
          word.toLower = "as" ∧ Derives .or ks header.source :=
  ⟨fun _ => parse?_eq_ok_iff, fun _ _ _ => Derives.unique, fun _ => parseLoopHeader?_eq_ok_iff⟩

end Templating.Expr
