import Templating.Context
import Templating.Proofs.Expr.ArgumentList

/-!
# Names that are known without evaluation

A directive that is given one argument of which the name is known is given one expression, the whole
text (`parse?_of_staticName?`): a text, or a word that is a name, which never begins with the sign of
variables (`isIdentifier_of_parse?`).
-/

namespace Templating.Expr

variable {c : Char} {cs rest : List Char} {name : String} {k : TokenKind} {ks : List TokenKind}

def TokenKind.Names (k : TokenKind) (name : String) : Prop :=
  k = .variable name ∨ k = .ident name

theorem isIdentifier_ofList (hc : isIdentStart c = true) (hcs : ∀ d ∈ cs, isIdentChar d = true) :
    isIdentifier (String.ofList (c :: cs)) = true := by
  rw [isIdentifier, String.toList_ofList]
  exact Bool.and_eq_true_iff.2 ⟨hc, List.all_eq_true.2 hcs⟩

theorem not_names_of_readSymbol? (h : readSymbol? cs = some (k, rest)) : ¬k.Names name := by
  unfold readSymbol? at h
  split at h <;> cases h <;> rintro (h | h) <;> cases h

theorem isIdentifier_of_readToken {token : Consumed (c :: cs) TokenKind}
    (h : readToken c cs = .ok token) (hname : token.value.Names name) : isIdentifier name = true := by
  have hrun (cs : List Char) : ∀ d ∈ cs.takeWhile isIdentChar, isIdentChar d = true :=
    List.all_eq_true.1 List.all_takeWhile
  unfold readToken at h
  split at h
  · cases cs with
    | nil => cases h
    | cons d ds =>
      simp only at h
      split at h
      · rename_i hd
        cases h
        obtain hname | hname := hname
        · cases hname
          rw [List.takeWhile_cons, if_pos (isIdentChar_of_isIdentStart hd)]
          exact isIdentifier_ofList hd (hrun ds)
        · cases hname
      · cases h
  split at h
  · split at h
    · cases h
      obtain hname | hname := hname <;> cases hname
    · cases h
  split at h
  · cases h
    obtain hname | hname := hname <;> cases hname
  split at h
  · rename_i hc
    cases h
    obtain hname | hname := hname
    · cases hname
    · cases hname
      exact isIdentifier_ofList hc (hrun cs)
  · split at h
    · rename_i hsymbol
      cases h
      exact absurd hname (not_names_of_readSymbol? hsymbol)
    · cases h

theorem Takes.isIdentifier (h : Takes cs ks rest) (hk : k ∈ ks) (hname : k.Names name) :
    isIdentifier name = true := by
  induction h with
  | done => cases hk
  | gap _ _ ih => exact ih hk
  | token _ hread _ ih =>
    rcases List.mem_cons.1 hk with rfl | hk
    · exact isIdentifier_of_readToken hread hname
    · exact ih hk

theorem Derives.exists_names {level : Level} {e : Expr} {keys : List Expr} (h : Derives level ks e)
    (he : e = .variable name keys) : ∃ k ∈ ks, k.Names name := by
  induction h with
  | or _ _ ih | and _ _ ih =>
    obtain ⟨rfl, hfirst⟩ := Part.eq_nil_of_folded_eq he (by simp)
    obtain ⟨k, hk, hname⟩ := ih hfirst
    exact ⟨k, List.mem_append_left _ hk, hname⟩
  | positive _ ih | single _ ih | whole _ _ ih => exact ih he
  | group _ ih =>
    obtain ⟨k, hk, hname⟩ := ih he
    exact ⟨k, by simp [hk], hname⟩
  | marked =>
    cases he
    exact ⟨_, List.mem_cons_self, .inl rfl⟩
  | bare =>
    cases he
    exact ⟨_, List.mem_cons_self, .inr rfl⟩
  | _ => cases he

theorem isIdentifier_of_parse? {source : String} {keys : List Expr}
    (h : parse? source = .ok (.variable name keys)) : isIdentifier name = true := by
  obtain ⟨ks, hks, hderives⟩ := parse?_eq_ok_iff_takes.1 h
  obtain ⟨k, hk, hname⟩ := hderives.exists_names rfl
  exact hks.isIdentifier hk hname

theorem plainName_of_isIdentifier (h : isIdentifier name = true) :
    Context.plainName name = name := by
  unfold Context.plainName
  split
  · rename_i cs hcs
    rw [isIdentifier, hcs] at h
    cases h
  · rfl

/-- Arguments that are one name are that expression. -/
theorem parse?_of_staticName? {args : String} {e : Expr} (h : parseArguments args = [e])
    (hname : e.staticName?.isSome = true) : parse? args = .ok e := by
  unfold parseArguments at h
  split at h
  · rename_i es hes
    subst h
    exact parse?_of_parseArguments? hes
  · obtain rfl := (List.cons.inj h).1
    unfold parse at hname ⊢
    split at hname
    · rename_i e he
      rw [he]
    · cases hname

end Templating.Expr
