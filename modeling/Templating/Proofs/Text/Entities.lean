import Mathlib
import Templating.Text.Markup

/-!
# Entities

`unescapeChars` reads the four entities back. A text that is escaped is inert: it has no markup
character in it but ampersands, each of them at the beginning of an entity (`inert_escapeChars`). What
was escaped is what is read back (`unescapeChars_escapeChars`), also where the text has entities in it
already.
-/

namespace Templating.Text

/-- Each of the four entities is replaced by its character, from left to right. -/
def unescapeChars : List Char → List Char
  | '&' :: 'a' :: 'm' :: 'p' :: ';' :: cs => '&' :: unescapeChars cs
  | '&' :: 'l' :: 't' :: ';' :: cs => '<' :: unescapeChars cs
  | '&' :: 'g' :: 't' :: ';' :: cs => '>' :: unescapeChars cs
  | '&' :: 'q' :: 'u' :: 'o' :: 't' :: ';' :: cs => '\x22' :: unescapeChars cs
  | c :: cs => c :: unescapeChars cs
  | [] => []

def unescape (s : String) : String :=
  String.ofList (unescapeChars s.toList)

/-! ## What is read back -/

def IsPlain (c : Char) : Prop :=
  c ≠ '&' ∧ c ≠ '<' ∧ c ≠ '>' ∧ c ≠ '\x22'

instance : DecidablePred IsPlain := fun c =>
  inferInstanceAs (Decidable (c ≠ '&' ∧ c ≠ '<' ∧ c ≠ '>' ∧ c ≠ '\x22'))

theorem entity?_eq_none {c : Char} (h : IsPlain c) : entity? c = none := by
  obtain ⟨hampersand, hless, hgreater, hquote⟩ := h
  unfold entity?
  split <;> first | contradiction | rfl

theorem eq_of_not_isPlain {c : Char} (h : ¬IsPlain c) : c = '&' ∨ c = '<' ∨ c = '>' ∨ c = '\x22' := by
  by_contra hnone
  push Not at hnone
  exact h hnone

theorem unescapeChars_cons {c : Char} (h : c ≠ '&') (cs : List Char) :
    unescapeChars (c :: cs) = c :: unescapeChars cs := by
  conv_lhs => unfold unescapeChars
  split <;> simp_all

theorem unescapeChars_escapeChars (cs : List Char) : unescapeChars (escapeChars cs) = cs := by
  induction cs with
  | nil => rfl
  | cons c cs ih =>
    rw [escapeChars_cons]
    by_cases hplain : IsPlain c
    · rw [entity?_eq_none hplain, Option.getD_none, List.singleton_append,
        unescapeChars_cons hplain.1, ih]
    · -- An entity is read as its character, and reading goes on behind it.
      rcases eq_of_not_isPlain hplain with rfl | rfl | rfl | rfl <;> exact congrArg _ ih

theorem unescape_escape (s : String) : unescape (escape s) = s := by
  rw [unescape, toList_escape, unescapeChars_escapeChars, String.ofList_toList]

/-! ## What cannot be read as markup -/

/-- Text that stays text wherever it stands: nothing in it opens or closes a tag or an attribute, and
each ampersand in it begins an entity. -/
structure Inert (cs : List Char) : Prop where
  less_notMem : '<' ∉ cs
  greater_notMem : '>' ∉ cs
  quote_notMem : '\x22' ∉ cs
  exists_entity : ∀ rest, '&' :: rest <:+ cs →
    ∃ c entity, entity? c = some entity ∧ entity <+: '&' :: rest

namespace Inert

variable {cs : List Char}

theorem nil : Inert [] where
  less_notMem := List.not_mem_nil
  greater_notMem := List.not_mem_nil
  quote_notMem := List.not_mem_nil
  exists_entity rest h := by
    cases List.suffix_nil.1 h

theorem cons {c : Char} (hc : IsPlain c) (h : Inert cs) : Inert (c :: cs) where
  less_notMem hmem := (List.mem_cons.1 hmem).elim (fun heq => hc.2.1 heq.symm) h.less_notMem
  greater_notMem hmem := (List.mem_cons.1 hmem).elim (fun heq => hc.2.2.1 heq.symm) h.greater_notMem
  quote_notMem hmem := (List.mem_cons.1 hmem).elim (fun heq => hc.2.2.2 heq.symm) h.quote_notMem
  exists_entity rest hsuffix := by
    rcases List.suffix_cons_iff.1 hsuffix with heq | hsuffix
    · exact absurd (List.head_eq_of_cons_eq heq).symm hc.1
    · exact h.exists_entity rest hsuffix

theorem append {plain : List Char} (hplain : ∀ c ∈ plain, IsPlain c) (h : Inert cs) :
    Inert (plain ++ cs) := by
  induction plain with
  | nil => exact h
  | cons c plain ih =>
    obtain ⟨hc, hplain⟩ := List.forall_mem_cons.1 hplain
    exact (ih hplain).cons hc

theorem entity {c : Char} {cs' : List Char} (hentity : entity? c = some cs') (h : Inert cs) :
    Inert (cs' ++ cs) := by
  obtain ⟨name, rfl, hname⟩ : ∃ name, cs' = '&' :: name ∧ ∀ d ∈ name, IsPlain d := by
    unfold entity? at hentity
    split at hentity <;> cases hentity
    · exact ⟨['a', 'm', 'p', ';'], rfl, by simp [IsPlain]⟩
    · exact ⟨['l', 't', ';'], rfl, by simp [IsPlain]⟩
    · exact ⟨['g', 't', ';'], rfl, by simp [IsPlain]⟩
    · exact ⟨['q', 'u', 'o', 't', ';'], rfl, by simp [IsPlain]⟩
  have hrest := h.append hname
  constructor
  · exact fun hmem => (List.mem_cons.1 hmem).elim (by decide) hrest.less_notMem
  · exact fun hmem => (List.mem_cons.1 hmem).elim (by decide) hrest.greater_notMem
  · exact fun hmem => (List.mem_cons.1 hmem).elim (by decide) hrest.quote_notMem
  · intro rest hsuffix
    rcases List.suffix_cons_iff.1 hsuffix with heq | hsuffix
    · exact ⟨c, _, hentity, heq ▸ List.prefix_append _ _⟩
    · exact hrest.exists_entity rest hsuffix

end Inert

theorem inert_escapeChars (cs : List Char) : Inert (escapeChars cs) := by
  induction cs with
  | nil => exact .nil
  | cons c cs ih =>
    rw [escapeChars_cons]
    cases hentity : entity? c with
    | some entity => exact ih.entity hentity
    | none =>
      refine ih.cons (Decidable.byContradiction fun hplain => ?_)
      rcases eq_of_not_isPlain hplain with rfl | rfl | rfl | rfl <;> cases hentity

end Templating.Text
