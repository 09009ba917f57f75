import Templating.Proofs.Render.Agreement

/-!
# The sections of a page

Of the sections that a page writes, the first of each name is compiled, one after the other in
document order (`renderSections_eq`), and each text is found under its name (`find?_zip_mapM`). What
the page then hands to its layout is told by lookups: a name that was handed to the page itself comes
before one of its own (`find?_handSections`), and the context of the layout has every section as a
variable (`find?_layoutContext`).
-/

namespace Templating

namespace Render

theorem bind_eq_ok {α β : Type} {act : Render α} {next : α → Render β} {s u : RenderState} {b : β}
    (h : (act >>= next) s = (.ok b, u)) : ∃ a t, act s = (.ok a, t) ∧ next a t = (.ok b, u) := by
  rw [bind_apply] at h
  rcases hact : act s with ⟨e | a, t⟩
  · rw [hact] at h
    cases h
  · rw [hact] at h
    exact ⟨a, t, rfl, h⟩

theorem mapM_cons_eq_ok {α β : Type} {act : α → Render β} {x : α} {xs : List α} {bs : List β}
    {s u : RenderState} (h : (x :: xs).mapM act s = (.ok bs, u)) :
    ∃ b rest t, act x s = (.ok b, t) ∧ xs.mapM act t = (.ok rest, u) ∧ bs = b :: rest := by
  rw [List.mapM_cons] at h
  obtain ⟨b, t, hb, h⟩ := bind_eq_ok h
  obtain ⟨rest, v, hrest, h⟩ := bind_eq_ok h
  cases h
  exact ⟨b, rest, t, hb, hrest, rfl⟩

end Render

namespace Section

def firsts (seen : List String) : List Section → List Section
  | [] => []
  | part :: parts =>
    if part.name ∈ seen then firsts seen parts
    else part :: firsts (seen ++ [part.name]) parts

/-- `parts` are the first sections of each name in `all`, in their order. -/
structure AreFirsts (all parts : List Section) : Prop where
  sublist : parts.Sublist all
  nodup : (parts.map name).Nodup
  find?_eq : ∀ wanted, parts.find? (·.name = wanted) = all.find? (·.name = wanted)

theorem firsts_sublist (seen : List String) (all : List Section) :
    (firsts seen all).Sublist all := by
  induction all generalizing seen with
  | nil => exact .slnil
  | cons part parts ih =>
    rw [firsts]
    split
    · exact (ih seen).cons part
    · exact (ih _).cons_cons part

theorem name_not_mem_of_mem_firsts {seen : List String} {all : List Section} {part : Section}
    (h : part ∈ firsts seen all) : part.name ∉ seen := by
  induction all generalizing seen with
  | nil => cases h
  | cons first parts ih =>
    rw [firsts] at h
    split at h
    · exact ih h
    · rename_i hfirst
      rcases List.mem_cons.1 h with rfl | h
      · exact hfirst
      · exact fun hseen => ih h (List.mem_append_left _ hseen)

theorem nodup_names_firsts (seen : List String) (all : List Section) :
    ((firsts seen all).map name).Nodup := by
  induction all generalizing seen with
  | nil => exact List.nodup_nil
  | cons part parts ih =>
    rw [firsts]
    split
    · exact ih seen
    · rw [List.map_cons, List.nodup_cons]
      refine ⟨fun hmem => ?_, ih _⟩
      obtain ⟨other, hother, hname⟩ := List.mem_map.1 hmem
      exact name_not_mem_of_mem_firsts hother (by simp [hname])

theorem find?_firsts {seen : List String} {wanted : String} (h : wanted ∉ seen)
    (all : List Section) :
    (firsts seen all).find? (·.name = wanted) = all.find? (·.name = wanted) := by
  induction all generalizing seen with
  | nil => rfl
  | cons part parts ih =>
    by_cases hname : part.name = wanted
    · simp [firsts, hname, h]
    · rw [firsts]
      split
      · simpa [hname] using ih h
      · have hseen : wanted ∉ seen ++ [part.name] := by simp [h, Ne.symm hname]
        simpa [hname] using ih hseen

theorem areFirsts_firsts (all : List Section) : AreFirsts all (firsts [] all) where
  sublist := firsts_sublist [] all
  nodup := nodup_names_firsts [] all
  find?_eq := fun _ => find?_firsts List.not_mem_nil all

variable {act : Section → Render String} {parts : List Section} {s t : RenderState}

/-- When `act` is done for all of `parts` from the state `s` on, it gives the text `text` for `part`,
after it was done for those before. -/
def ComesTo (act : Section → Render String) (parts : List Section) (s : RenderState)
    (part : Section) (text : String) : Prop :=
  ∃ before after texts t u, parts = before ++ part :: after ∧
    before.mapM act s = (.ok texts, t) ∧ act part t = (.ok text, u)

theorem comesTo_cons_self {part : Section} {text : String} (h : act part s = (.ok text, t)) :
    ComesTo act (part :: parts) s part text :=
  ⟨[], parts, [], s, t, rfl, rfl, h⟩

theorem ComesTo.cons {first part : Section} {text out : String} (hfirst : act first s = (.ok out, t))
    (h : ComesTo act parts t part text) : ComesTo act (first :: parts) s part text := by
  obtain ⟨before, after, texts, u, v, hparts, hbefore, hpart⟩ := h
  refine ⟨first :: before, after, out :: texts, u, v, ?_, ?_, hpart⟩
  · rw [hparts, List.cons_append]
  · rw [List.mapM_cons, Render.bind_apply, hfirst]
    simp only [Render.bind_apply, hbefore]
    rfl

theorem find?_zip_mapM {texts : List String} (h : parts.mapM act s = (.ok texts, t))
    (wanted : String) :
    match parts.find? (·.name = wanted) with
    | none => Entries.find? wanted ((parts.map name).zip texts) = none
    | some part => ∃ text, Entries.find? wanted ((parts.map name).zip texts) = some text ∧
        ComesTo act parts s part text := by
  induction parts generalizing s texts with
  | nil => rfl
  | cons first parts ih =>
    obtain ⟨text, rest, u, hfirst, hrest, rfl⟩ := Render.mapM_cons_eq_ok h
    by_cases hname : first.name = wanted
    · simp only [List.find?_cons, hname, decide_true, List.map_cons, List.zip_cons_cons,
        Entries.find?_cons, if_true]
      exact ⟨text, rfl, comesTo_cons_self hfirst⟩
    · have hih := ih hrest
      simp only [List.find?_cons, hname, decide_false, List.map_cons, List.zip_cons_cons,
        Entries.find?_cons, if_false]
      split at hih
      · rename_i hnone
        simpa only [hnone] using hih
      · rename_i part hsome
        obtain ⟨found, hfound, hcomes⟩ := hih
        simpa only [hsome] using ⟨found, hfound, hcomes.cons hfirst⟩

end Section

namespace Renderer

variable (r : Renderer) (enter : Enter) (f : Frame)

/-- The sections of a page are compiled in order, each name once, all in the same frame. -/
theorem renderSections_eq (done : Entries String) (all : List Section) :
    r.renderSections enter f done all = do
      let parts := Section.firsts (Entries.names done) all
      let texts ← parts.mapM (r.renderSection enter f)
      return done ++ (parts.map Section.name).zip texts := by
  induction all generalizing done with
  | nil => simp [renderSections, Section.firsts]
  | cons part parts ih =>
    by_cases hname : part.name ∈ Entries.names done
    · rw [renderSections, if_pos (Entries.contains_eq_true_iff.2 hname), ih]
      simp [Section.firsts, hname]
    · have hcontains : ¬Entries.contains part.name done = true :=
        fun h => hname (Entries.contains_eq_true_iff.1 h)
      rw [renderSections, if_neg hcontains]
      simp only [ih, hname, if_false, Entries.insert_of_not_mem hname, Entries.names_append,
        Entries.names_cons, Entries.names_nil, Section.firsts, List.mapM_cons, List.map_cons,
        bind_assoc, pure_bind, List.zip_cons_cons, List.append_assoc, List.singleton_append]

variable {handed own : Entries String} {body : String}

theorem nodup_names_handSections (hown : (Entries.names own).Nodup) :
    (Entries.names (handSections handed own body)).Nodup := by
  have hall := Entries.nodup_names_insertAll hown handed
  rw [handSections]
  split
  · exact hall
  · exact Entries.nodup_names_insert hall _ _

/-- What was handed to a page comes before its own sections, and the body before nothing. -/
theorem find?_handSections (hhanded : (Entries.names handed).Nodup) (name : String) :
    Entries.find? name (handSections handed own body) =
      ((Entries.find? name handed).or (Entries.find? name own)).or
        (if name = contentName then some body else none) := by
  have hall := Entries.find?_insertAll hhanded name own
  simp only [handSections]
  split
  · rename_i hcontent
    rw [hall]
    by_cases hname : name = contentName
    · subst hname
      rw [Entries.contains, hall] at hcontent
      rw [Option.or_of_isSome hcontent]
    · simp [hname]
  · rename_i hcontent
    rw [Entries.find?_insert, hall]
    by_cases hname : name = contentName
    · subst hname
      rw [Entries.contains, hall, Option.not_isSome_iff_eq_none] at hcontent
      rw [hcontent]
      simp
    · simp [hname]

/-- The context of a layout: its sections, and behind them what the page left. -/
theorem find?_layoutContext {sections : Entries String} (h : (Entries.names sections).Nodup)
    (c : Context) (name : String) :
    (layoutContext c sections).find? name =
      ((Entries.find? name sections).map Value.text).or (c.find? name) := by
  have hbindings : (layoutContext c sections).bindings =
      Entries.insertAll c.bindings (sections.map fun entry => (entry.1, Value.text entry.2)) := by
    clear h
    induction sections generalizing c with
    | nil => rfl
    | cons entry sections ih => exact ih (c.bind entry.1 (.text entry.2))
  have hnames := (Entries.names_map Value.text sections).symm ▸ h
  rw [Context.find?, hbindings, Entries.find?_insertAll hnames, Entries.find?_map]
  rfl

end Renderer

end Templating
