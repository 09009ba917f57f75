/-!
# Quoted runs

A quoted run begins with a quote character and ends at the next quote of the same kind that no
backslash protects. `split?` cuts a text where the run ends and `read?` also decodes what stands in
it; both are given the text after the opening quote, and they agree on where the run ends
(`read?_rest`).
-/

namespace Templating.Text.Quoted

def isQuote (c : Char) : Bool :=
  c == '\x27' || c == '\x22'

/-- Cuts a text after the quoted run whose opening quote `quote` was just read: the characters up to
and with the closing quote, and the rest. There is none when the run never closes. A backslash hides
the character after it. -/
def split? (quote : Char) : List Char → Option (List Char × List Char)
  | [] => none
  | ['\x5c'] => none
  | '\x5c' :: c :: cs => (split? quote cs).map fun (run, rest) => ('\x5c' :: c :: run, rest)
  | c :: cs =>
    if c = quote then some ([c], cs)
    else (split? quote cs).map fun (run, rest) => (c :: run, rest)

/-- What a backslash followed by `c` stands for inside `quote`: the quote and the backslash lose
their backslash, `\n` and `\t` have a meaning between double quotes, and anything else is kept as it
is written. -/
def unescape (quote c : Char) : List Char :=
  if c = quote ∨ c = '\x5c' then [c]
  else if quote = '\x22' ∧ c = 'n' then ['\n']
  else if quote = '\x22' ∧ c = 't' then ['\t']
  else ['\x5c', c]

/-- The decoded text of the quoted run whose opening quote `quote` was just read, and what follows
the run; there is none when the run never closes. -/
def read? (quote : Char) : List Char → Option (List Char × List Char)
  | [] => none
  | ['\x5c'] => none
  | '\x5c' :: c :: cs => (read? quote cs).map fun (text, rest) => (unescape quote c ++ text, rest)
  | c :: cs =>
    if c = quote then some ([], cs)
    else (read? quote cs).map fun (text, rest) => (c :: text, rest)

theorem split?_append {quote : Char} {cs run rest : List Char}
    (h : split? quote cs = some (run, rest)) : run ++ rest = cs := by
  fun_induction split? quote cs generalizing run with
  | case1 => simp at h
  | case2 => simp at h
  | case3 c cs ih =>
    obtain ⟨⟨run', rest'⟩, hr, he⟩ := Option.map_eq_some_iff.1 h
    obtain ⟨rfl, rfl⟩ := Prod.mk.inj he
    simp [ih hr]
  | case4 cs _ _ =>
    obtain ⟨rfl, rfl⟩ := Prod.mk.inj (Option.some.inj h)
    rfl
  | case5 c cs _ _ hc ih =>
    obtain ⟨⟨run', rest'⟩, hr, he⟩ := Option.map_eq_some_iff.1 h
    obtain ⟨rfl, rfl⟩ := Prod.mk.inj he
    simp [ih hr]

theorem ne_backslash {c : Char} {cs : List Char} (hlast : c = '\x5c' → cs = [] → False)
    (hmore : ∀ d ds, c = '\x5c' → cs = d :: ds → False) : c ≠ '\x5c' := by
  intro hc
  cases cs with
  | nil => exact hlast hc rfl
  | cons d ds => exact hmore d ds hc rfl

theorem split?_cons {quote c : Char} (hc : c ≠ '\x5c') (cs : List Char) :
    split? quote (c :: cs) =
      if c = quote then some ([c], cs)
      else (split? quote cs).map fun (run, rest) => (c :: run, rest) := by
  cases cs <;> simp [split?, hc]

/-- Where a run ends does not depend on what follows it. -/
theorem split?_run_append {quote : Char} {cs run rest : List Char}
    (h : split? quote cs = some (run, rest)) (more : List Char) :
    split? quote (run ++ more) = some (run, more) := by
  fun_induction split? quote cs generalizing run with
  | case1 => cases h
  | case2 => cases h
  | case3 c cs ih =>
    obtain ⟨⟨run, rest⟩, hsplit, heq⟩ := Option.map_eq_some_iff.1 h
    cases heq
    rw [List.cons_append, List.cons_append, split?, ih hsplit]
    rfl
  | case4 cs hlast hmore =>
    cases h
    rw [List.cons_append, split?_cons (ne_backslash hlast hmore), if_pos rfl]
    rfl
  | case5 c cs hlast hmore hc ih =>
    obtain ⟨⟨run, rest⟩, hsplit, heq⟩ := Option.map_eq_some_iff.1 h
    cases heq
    rw [List.cons_append, split?_cons (ne_backslash hlast hmore), if_neg hc, ih hsplit]
    rfl

theorem length_lt_of_split? {quote : Char} {cs run rest : List Char}
    (h : split? quote cs = some (run, rest)) : rest.length < cs.length := by
  fun_induction split? quote cs generalizing run with
  | case1 => simp at h
  | case2 => simp at h
  | case3 c cs ih =>
    obtain ⟨⟨run', rest'⟩, hr, he⟩ := Option.map_eq_some_iff.1 h
    obtain ⟨rfl, rfl⟩ := Prod.mk.inj he
    have := ih hr
    simp only [List.length_cons]
    omega
  | case4 cs _ _ =>
    obtain ⟨rfl, rfl⟩ := Prod.mk.inj (Option.some.inj h)
    simp
  | case5 c cs _ _ hc ih =>
    obtain ⟨⟨run', rest'⟩, hr, he⟩ := Option.map_eq_some_iff.1 h
    obtain ⟨rfl, rfl⟩ := Prod.mk.inj he
    have := ih hr
    simp only [List.length_cons]
    omega

/-- Decoding a quoted run ends where the run ends. -/
theorem read?_rest (quote : Char) (cs : List Char) :
    (read? quote cs).map (·.2) = (split? quote cs).map (·.2) := by
  fun_induction split? quote cs with
  | case1 => rfl
  | case2 => rfl
  | case3 c cs ih => simpa [read?, Function.comp_def] using ih
  | case4 cs h1 h2 => simp [read?]
  | case5 c cs h1 h2 hc ih => simpa [read?, hc, Function.comp_def] using ih

theorem length_lt_of_read? {quote : Char} {cs text rest : List Char}
    (h : read? quote cs = some (text, rest)) : rest.length < cs.length := by
  have hs := read?_rest quote cs
  rw [h] at hs
  obtain ⟨⟨run, rest'⟩, hr, he⟩ := Option.map_eq_some_iff.1 hs.symm
  obtain rfl : rest' = rest := he
  exact length_lt_of_split? hr

end Templating.Text.Quoted
