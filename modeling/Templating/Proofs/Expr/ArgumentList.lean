import Mathlib
import Templating.Proofs.Expr.Parenthesized

/-!
# Argument lists

A list of arguments is read in two ways: up to the closing parenthesis of a call, and as a text of its
own up to the end. Both derive expressions between commas (`parseArguments?_eq_ok_iff`), and a text is
lexed before a closing parenthesis as it is without one (`Takes.before_paren`), so a text is an
argument list exactly when it is one between the parentheses of a call (`parse?_call_iff`).
-/

namespace Templating.Expr

/-! ## Reading off the front -/

namespace Takes

variable {c : Char} {cs rest : List Char} {k : TokenKind} {ks : List TokenKind}

theorem of_fronts (hfront : Fronts k cs rest) (h : Takes cs ks []) :
    ∃ ls, ks = k :: ls ∧ Takes rest ls [] := by
  obtain ⟨c, ds, token, rfl, hgap, hread, rfl, rfl⟩ := hfront
  cases h with
  | gap hc => exact absurd (hgap.symm.trans hc) Bool.false_ne_true
  | token _ hread' h =>
    rw [hread] at hread'
    cases hread'
    exact ⟨_, rfl, h⟩

theorem fronts {mid : List Char} (hfront : Fronts k cs mid) (h : Takes mid ks rest) :
    Takes cs (k :: ks) rest := by
  obtain ⟨c, ds, token, rfl, hgap, hread, rfl, rfl⟩ := hfront
  exact .token hgap hread h

theorem exists_gaps (h : Takes cs [] rest) :
    ∃ blanks, cs = blanks ++ rest ∧ ∀ c ∈ blanks, isGap c = true := by
  generalize hks : ([] : List TokenKind) = ks at h
  induction h with
  | done => exact ⟨[], rfl, List.forall_mem_nil _⟩
  | @gap c cs ks rest hc _ ih =>
    obtain ⟨blanks, rfl, hblanks⟩ := ih hks
    exact ⟨c :: blanks, rfl, List.forall_mem_cons.2 ⟨hc, hblanks⟩⟩
  | token => cases hks

end Takes

/-! ## Expressions between commas -/

theorem parseTopList_reads {length : Nat} {ts : List Token} {args : List Expr}
    (h : parseTopList length ts = .ok args) :
    ∃ p parts, ReadsParts .or (Part.listed false) ts [] (p :: parts) ∧
      args = Part.trees (p :: parts) := by
  rw [parseTopList] at h
  split at h
  · cases h
  · rename_i arg harg
    obtain ⟨ks, hks, hd⟩ := parseOr_reads harg
    split at h
    · obtain ⟨hrest, rfl⟩ := finish_eq_ok_iff.1 h
      refine ⟨(ks, arg.value), [], ⟨?_, by simpa using hd⟩, rfl⟩
      rw [hks, hrest]
      simp [Part.listed]
    · rename_i comma hcomma
      have hshorter := (arg.step comma ()).shorter
      cases hlater : parseTopList length comma.rest with
      | error e =>
        rw [hlater] at h
        cases h
      | ok later =>
        rw [hlater] at h
        cases h
        obtain ⟨p, parts, ⟨hparts, hall⟩, rfl⟩ := parseTopList_reads hlater
        refine ⟨(ks, arg.value), p :: parts, ⟨?_, List.forall_mem_cons.2 ⟨hd, hall⟩⟩, rfl⟩
        rw [hks, kinds_of_eat hcomma, hparts]
        simp [Part.listed]
termination_by ts.length

theorem exists_parseTopList (length : Nat) {ts : List Token} {p : Part} {parts : List Part}
    (hd : ∀ q ∈ p :: parts, Derives .or q.1 q.2)
    (hks : kinds ts = Part.listed false (p :: parts)) :
    parseTopList length ts = .ok (Part.trees (p :: parts)) := by
  induction parts generalizing p ts with
  | nil =>
    have hp := hd p (List.mem_singleton_self p)
    obtain ⟨arg, harg, hvalue, hrest⟩ := hp.exists_parseOr length hks (Level.stops_nil _)
    have hcomma := eat_eq_none .comma hrest (by simp)
    rw [parseTopList, harg]
    simp only [hcomma]
    exact finish_eq_ok_iff.2 ⟨kinds_eq_nil hrest, by rw [hvalue]; rfl⟩
  | cons q parts ih =>
    obtain ⟨hp, hall⟩ := List.forall_mem_cons.1 hd
    rw [Part.listed_cons, if_neg (by simp)] at hks
    obtain ⟨arg, harg, hvalue, hrest⟩ := hp.exists_parseOr length hks (Level.stops_cons rfl _)
    obtain ⟨comma, hcomma, hlater⟩ := exists_eat hrest
    rw [parseTopList, harg]
    simp only [hcomma, ih hall hlater, hvalue]
    rfl

/-- A text is an argument list when all of it is read as expressions between commas. -/
theorem parseArguments?_eq_ok_iff {source : String} {args : List Expr} :
    parseArguments? source = .ok args ↔
      ∃ parts, Takes source.toList (Part.listed false parts) [] ∧
        (∀ p ∈ parts, Derives .or p.1 p.2) ∧ args = Part.trees parts := by
  unfold parseArguments?
  constructor
  · intro h
    split at h
    · cases h
    · rename_i htokens
      cases h
      exact ⟨[], .of_tokensFrom htokens, List.forall_mem_nil _, rfl⟩
    · rename_i t ts htokens
      obtain ⟨p, parts, ⟨hparts, hall⟩, hargs⟩ := parseTopList_reads h
      rw [kinds_nil, List.append_nil] at hparts
      exact ⟨p :: parts, hparts ▸ .of_tokensFrom htokens, hall, hargs⟩
  · rintro ⟨parts, htakes, hall, rfl⟩
    obtain ⟨ts, hts, hks⟩ := htakes.exists_tokensFrom 0
    rw [tokens, hts]
    cases parts with
    | nil =>
      obtain rfl := kinds_eq_nil hks
      rfl
    | cons p parts =>
      cases ts with
      | nil =>
        obtain ⟨k, rest, hk, -⟩ := (hall p List.mem_cons_self).begins
        rw [Part.listed_cons, hk] at hks
        cases hks
      | cons t ts => exact exists_parseTopList _ hall hks

theorem parse?_of_parseArguments? {source : String} {e : Expr}
    (h : parseArguments? source = .ok [e]) : parse? source = .ok e := by
  obtain ⟨parts, htakes, hall, htrees⟩ := parseArguments?_eq_ok_iff.1 h
  obtain ⟨p, rfl, rfl⟩ := List.map_eq_singleton_iff.1 htrees.symm
  rw [Part.listed_cons, if_pos ⟨rfl, rfl⟩, List.append_nil] at htakes
  exact parse?_eq_ok_iff_takes.2 ⟨p.1, htakes, hall p (List.mem_singleton_self p)⟩

/-! ## Calls -/

theorem Part.eq_nil_of_folded_eq {op : Connective} {first e : Expr} {parts : List Part}
    (h : Part.folded op first parts = e) (he : ∀ left right, e ≠ .logical op left right) :
    parts = [] ∧ first = e := by
  rcases List.eq_nil_or_concat parts with rfl | ⟨parts, p, rfl⟩
  · exact ⟨rfl, h⟩
  · rw [Part.folded, List.concat_eq_append, List.foldl_append] at h
    exact absurd h.symm (he _ _)

/-- An expression that is a call and begins with a word and a parenthesis is what is between that
parenthesis and the last token. -/
theorem Derives.exists_listed {level : Level} {name f : String} {ks : List TokenKind} {e : Expr}
    {args : List Expr} (h : Derives level (.ident name :: .leftParen :: ks) e)
    (he : e = .call f args) :
    name = f ∧ ∃ parts : List Part, ks = Part.listed false parts ++ [.rightParen] ∧
      (∀ p ∈ parts, Derives .or p.1 p.2) ∧ args = Part.trees parts := by
  generalize hks : TokenKind.ident name :: .leftParen :: ks = all at h
  induction h with
  | or _ _ ih | and _ _ ih =>
    obtain ⟨rfl, hfirst⟩ := Part.eq_nil_of_folded_eq he (by simp)
    exact ih hfirst (hks.trans (List.append_nil _))
  | positive _ ih | single _ ih | whole _ _ ih => exact ih he hks
  | call g hargs =>
    cases he
    obtain ⟨hname, hrest⟩ := List.cons.inj hks
    cases hname
    exact ⟨rfl, _, (List.cons.inj hrest).2, hargs, rfl⟩
  | _ => first | cases hks | cases he

theorem Takes.of_append_rightParen {cs : List Char} {ks : List TokenKind}
    (h : Takes (cs ++ [')']) (ks ++ [.rightParen]) []) : Takes cs ks [] := by
  obtain ⟨mid, hks, hclosing⟩ := h.of_append
  obtain ⟨front, hfront⟩ := hks.exists_front
  obtain ⟨blanks, after, rfl, hblanks, hafter⟩ := hclosing.exists_of_rightParen
  obtain ⟨gaps, rfl, hgaps⟩ := hafter.exists_gaps
  rcases List.eq_nil_or_concat gaps with rfl | ⟨gaps, last, rfl⟩
  · have hblank : Takes (blanks ++ [')']) [] [')'] := .gaps hblanks (.done _)
    simpa using of_before_paren (hks.append hblank)
  · -- what ends in a parenthesis does not end in blanks
    have hends : (cs ++ [')']).getLast? = some last := by
      simp [hfront, List.getLast?_append, List.getLast?_cons]
    obtain rfl : ')' = last := by simpa using hends
    exact absurd (hgaps ')' (by simp)) (by decide)

/-- Between the parentheses of a call stands what is an argument list as a text of its own: however
it leaves a quote or a parenthesis open or closes the call early, either both are read, as the same
arguments, or neither is. -/
theorem parse?_call_iff {f source : String} {args : List Expr} (hf : isIdentifier f = true) :
    parse? (f ++ "(" ++ source ++ ")") = .ok (.call f args) ↔
      parseArguments? source = .ok args := by
  have htext : (f ++ "(" ++ source ++ ")").toList =
      f.toList ++ '(' :: (source.toList ++ [')']) := by simp
  have hname : Fronts (.ident f) (f.toList ++ '(' :: (source.toList ++ [')']))
      ('(' :: (source.toList ++ [')'])) := fronts_ident hf (by simp [isIdentChar])
  rw [parse?_eq_ok_iff_takes, parseArguments?_eq_ok_iff, htext]
  constructor
  · rintro ⟨ks, htakes, hd⟩
    obtain ⟨ls, rfl, hopened⟩ := Takes.of_fronts hname htakes
    obtain ⟨ks, rfl, hinner⟩ := hopened.exists_of_leftParen
    obtain ⟨-, parts, rfl, hall, hargs⟩ := hd.exists_listed rfl
    exact ⟨parts, hinner.of_append_rightParen, hall, hargs⟩
  · rintro ⟨parts, htakes, hall, rfl⟩
    have hclosing : Takes [')'] [.rightParen] [] := .fronts (fronts_symbol rfl rfl) (.done [])
    have hcall := Derives.call f hall
    exact ⟨_, .fronts hname (.fronts (fronts_symbol rfl rfl)
      ((htakes.before_paren []).append hclosing)),
      (Derives.positive (.single hcall)).and_of_not.or_of_and⟩

/-- A parenthesis in quotes closes no call. -/
theorem parse?_call_iff_quoted :
    isIdentifier "in_array" = true ∧
      parse? "in_array('a)', [$b, c])" =
        .ok (.call "in_array" [.text "a)", .array [.variable "b" [], .text "c"]]) := by
  have hname : isIdentifier "in_array" = true := by decide
  have hargs : parseArguments? "'a)', [$b, c]" =
      .ok [.text "a)", .array [.variable "b" [], .text "c"]] := by cbv
  have htext : "in_array" ++ "(" ++ "'a)', [$b, c]" ++ ")" = "in_array('a)', [$b, c])" := by decide
  exact ⟨hname, htext ▸ (parse?_call_iff hname).2 hargs⟩

end Templating.Expr
