import Mathlib
import Templating.Path

/-!
# Parts and components of paths

A path is cut at its slashes (`parts_append_slash`), and its components are the parts that say
something. A part that leads one directory down (`Descends`) becomes the last component of the path
it is joined to (`components_join`), and a row of such parts becomes a row of components, with one
slash between any two (`foldl_join`, `components_foldl_join`).
-/

namespace Templating.Path

theorem splitAt_eq_splitOnP (p : Char → Bool) (cs : List Char) : splitAt p cs = cs.splitOnP p := by
  induction cs with
  | nil => rw [splitAt, List.splitOnP_nil]
  | cons c cs ih =>
    rw [List.splitOnP_cons_eq_if_modifyHead, splitAt, ih]
    split
    · rfl
    · obtain ⟨part, parts, h⟩ := List.exists_cons_of_ne_nil (List.splitOnP_ne_nil p cs)
      rw [h]
      rfl

theorem eq_false_of_mem_splitAt {p : Char → Bool} {cs piece : List Char} (h : piece ∈ splitAt p cs)
    {c : Char} (hc : c ∈ piece) : p c = false := by
  induction cs generalizing piece with
  | nil =>
    rw [List.mem_singleton.1 h] at hc
    cases hc
  | cons first cs ih =>
    rw [splitAt] at h
    split at h
    · rcases List.mem_cons.1 h with rfl | h
      · cases hc
      · exact ih h hc
    · rename_i hfirst
      obtain ⟨part, parts, hparts⟩ := List.exists_cons_of_ne_nil (List.splitOnP_ne_nil p cs)
      rw [← splitAt_eq_splitOnP] at hparts
      rw [hparts] at h ih
      rcases List.mem_cons.1 h with rfl | h
      · rcases List.mem_cons.1 hc with rfl | hc
        · exact eq_false_of_ne_true hfirst
        · exact ih List.mem_cons_self hc
      · exact ih (List.mem_cons_of_mem _ h) hc

theorem ofParts_parts (path : String) : ofParts (parts path) = path := by
  have hback : String.toList ∘ String.ofList = id := funext fun _ => String.toList_ofList
  rw [← String.toList_inj, ofParts, String.toList_intercalate, parts, splitAt_eq_splitOnP,
    List.map_map, hback, List.map_id]
  exact List.intercalate_splitOn '/'

theorem parts_append_slash (before behind : String) :
    parts (before ++ "/" ++ behind) = parts before ++ parts behind := by
  have htext : (before ++ "/" ++ behind).toList = before.toList ++ '/' :: behind.toList := by
    rw [String.toList_append, String.toList_append, List.append_assoc]
    rfl
  rw [parts, parts, parts, splitAt_eq_splitOnP, splitAt_eq_splitOnP, splitAt_eq_splitOnP, htext,
    List.splitOnP_append_cons (p := (· == '/')) _ _ rfl, List.map_append]

theorem parts_eq_singleton {part : String} (h : '/' ∉ part.toList) : parts part = [part] := by
  have hone : part.toList.splitOnP (· == '/') = [part.toList] :=
    List.splitOnP_eq_singleton fun c hc => beq_false_of_ne fun heq => h (heq ▸ hc)
  rw [parts, splitAt_eq_splitOnP, hone, List.map_singleton, String.ofList_toList]

theorem parts_empty : parts "" = [""] :=
  parts_eq_singleton (by simp)

theorem components_append_slash (before behind : String) :
    components (before ++ "/" ++ behind) = components before ++ components behind := by
  rw [components, parts_append_slash, List.filter_append, components, components]

/-- The parts that lead from a directory into one below it, or to a file in it. -/
structure Descends (part : String) : Prop where
  ne_empty : part ≠ ""
  ne_here : part ≠ "."
  ne_parent : part ≠ ".."
  not_isAbsolute : isAbsolute part = false
  slash_notMem : '/' ∉ part.toList

def directory (base : String) : String :=
  if base == "" || base.endsWith "/" then base else base ++ "/"

theorem exists_append_of_endsWith {text ending : String} (h : text.endsWith ending = true) :
    ∃ before, text = before ++ ending := by
  rw [String.endsWith_eq_endsWith_toSlice, ← String.Slice.isSome_skipSuffix?] at h
  obtain ⟨pos, hpos⟩ := Option.isSome_iff_exists.1 h
  rw [String.Slice.Pattern.Model.skipSuffix?_eq_some_iff,
    String.Slice.Pattern.Model.ForwardStringSearcher.isLongestRevMatch_iff] at hpos
  have hsplit := pos.splits.eq_append
  rw [hpos, String.copy_toSlice] at hsplit
  exact ⟨_, hsplit⟩

theorem Descends.of_toList {part : String} {c : Char} {cs : List Char} (h : part.toList = c :: cs)
    (hdot : c ≠ '.') (hslash : '/' ∉ c :: cs) : Descends part where
  ne_empty := by
    rintro rfl
    cases h
  ne_here := by
    rintro rfl
    cases h
    exact hdot rfl
  ne_parent := by
    rintro rfl
    cases h
    exact hdot rfl
  not_isAbsolute := by
    rw [isAbsolute, Bool.eq_false_iff, ne_eq, String.startsWith_string_iff, h]
    intro hprefix
    exact hslash ((List.cons_prefix_cons.1 hprefix).1 ▸ List.mem_cons_self)
  slash_notMem := h ▸ hslash

namespace Descends

variable {part : String}

theorem components_eq (h : Descends part) : components part = [part] := by
  have hkeep : isIdle part = false := by
    rw [isIdle, Bool.or_eq_false_iff]
    exact ⟨beq_false_of_ne h.ne_empty, beq_false_of_ne h.ne_here⟩
  rw [components, parts_eq_singleton h.slash_notMem, List.filter_singleton, hkeep]
  rfl

theorem join_eq (h : Descends part) (base : String) : join base part = directory base ++ part := by
  rw [join, h.not_isAbsolute, if_neg Bool.false_ne_true, directory]
  split <;> rfl

theorem directory_append (h : Descends part) (base : String) :
    directory (base ++ part) = base ++ part ++ "/" := by
  have hpart : part.toList ≠ [] := String.toList_eq_nil_iff.not.2 h.ne_empty
  refine if_neg fun hend => ?_
  rcases Bool.or_eq_true_iff.1 hend with hempty | hslash
  · have htext := congrArg String.toList (eq_of_beq hempty)
    rw [String.toList_append] at htext
    exact hpart (List.append_eq_nil_iff.1 htext).2
  · obtain ⟨before, htext⟩ := exists_append_of_endsWith hslash
    have hlast := congrArg (·.toList.getLast?) htext
    simp only [String.toList_append] at hlast
    rw [List.getLast?_append_of_ne_nil _ hpart] at hlast
    change _ = (before.toList ++ ['/']).getLast? at hlast
    rw [List.getLast?_concat] at hlast
    exact h.slash_notMem (List.mem_of_getLast? hlast)

end Descends

theorem components_directory_append (base behind : String) :
    components (directory base ++ behind) = components base ++ components behind := by
  have hnone : components "" = [] := by
    rw [components, parts_empty]
    rfl
  rw [directory]
  split
  · rename_i hend
    rcases Bool.or_eq_true_iff.1 hend with hempty | hslash
    · rw [eq_of_beq hempty, hnone, String.empty_append, List.nil_append]
    · obtain ⟨before, rfl⟩ := exists_append_of_endsWith hslash
      have hbase := components_append_slash before ""
      rw [hnone, List.append_nil, String.append_empty] at hbase
      rw [components_append_slash, hbase]
  · exact components_append_slash base behind

/-- A row of parts that lead down is put behind the path of the directory, slashes between them. -/
theorem foldl_join {base : String} {added : List String} (hne : added ≠ [])
    (h : ∀ part ∈ added, Descends part) :
    added.foldl join base = directory base ++ "/".intercalate added := by
  induction added generalizing base with
  | nil => exact absurd rfl hne
  | cons part added ih =>
    obtain ⟨hpart, hadded⟩ := List.forall_mem_cons.1 h
    cases added with
    | nil => rw [List.foldl_cons, List.foldl_nil, hpart.join_eq, String.intercalate_singleton]
    | cons next added =>
      rw [List.foldl_cons, ih (List.cons_ne_nil _ _) hadded, hpart.join_eq, hpart.directory_append,
        String.intercalate_cons_cons, String.append_assoc, String.append_assoc, String.append_assoc]

/-- Each part becomes a component of its own. -/
theorem components_foldl_join {base : String} {added : List String}
    (h : ∀ part ∈ added, Descends part) :
    components (added.foldl join base) = components base ++ added := by
  induction added generalizing base with
  | nil => rw [List.foldl_nil, List.append_nil]
  | cons part added ih =>
    obtain ⟨hpart, hadded⟩ := List.forall_mem_cons.1 h
    rw [List.foldl_cons, ih hadded, hpart.join_eq, components_directory_append,
      hpart.components_eq, List.append_assoc, List.singleton_append]

end Templating.Path
