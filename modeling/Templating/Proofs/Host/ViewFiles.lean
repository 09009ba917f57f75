import Mathlib
import Templating.Host.ViewFiles
import Templating.Proofs.Path

/-!
# Where the files of views are

The pieces of a name are the parts of the path that it becomes when its dots are taken for slashes
(`pieces_eq_parts`). If none of them is empty or has a backslash in it, each leads one directory down,
with the extension behind it as well, so the file of a view is below the directory of the views
(`pathFor?_within`), and names are told apart by their files as far as they have different pieces.
-/

namespace Templating.ViewFiles

def slashed (name : String) : String :=
  String.ofList (name.toList.map fun c => if c = '.' then '/' else c)

theorem pieces_eq_parts (name : String) : pieces name = Path.parts (slashed name) := by
  have hcut (cs : List Char) : Path.splitAt (fun c => c == '.' || c == '/') cs =
      Path.splitAt (· == '/') (cs.map fun c => if c = '.' then '/' else c) := by
    induction cs with
    | nil => rfl
    | cons c cs ih =>
      rw [List.map_cons, Path.splitAt, Path.splitAt, ih]
      by_cases hdot : c = '.'
      · subst hdot
        rfl
      · rw [if_neg hdot, beq_false_of_ne hdot, Bool.false_or]
  rw [pieces, Path.parts, slashed, String.toList_ofList, hcut]

theorem pieces_eq_pieces_iff {name name' : String} :
    pieces name = pieces name' ↔ slashed name = slashed name' := by
  rw [pieces_eq_parts, pieces_eq_parts]
  constructor
  · intro h
    rw [← Path.ofParts_parts (slashed name), h, Path.ofParts_parts]
  · rintro h
    rw [h]

theorem pieces_ne_nil (name : String) : pieces name ≠ [] := by
  rw [pieces, Path.splitAt_eq_splitOnP, ne_eq, List.map_eq_nil_iff]
  exact List.splitOnP_ne_nil _ _

theorem isPiece_iff {piece : String} :
    isPiece piece = true ↔ piece ≠ "" ∧ '\x5c' ∉ piece.toList := by
  simp [isPiece]

theorem descends_append {name piece behind : String} (hpiece : piece ∈ pieces name)
    (hne : piece ≠ "") (hbehind : '/' ∉ behind.toList) : Path.Descends (piece ++ behind) := by
  obtain ⟨cs, hcs, rfl⟩ := List.mem_map.1 hpiece
  have hclean {c : Char} (hc : c ∈ cs) : c ≠ '.' ∧ c ≠ '/' := by
    simpa using Path.eq_false_of_mem_splitAt hcs hc
  obtain ⟨c, rest, rfl⟩ : ∃ c rest, cs = c :: rest := by
    refine List.exists_cons_of_ne_nil ?_
    rintro rfl
    exact hne rfl
  have htext : (String.ofList (c :: rest) ++ behind).toList = c :: (rest ++ behind.toList) := by
    rw [String.toList_append, String.toList_ofList, List.cons_append]
  refine Path.Descends.of_toList htext (hclean List.mem_cons_self).1 ?_
  rw [← List.cons_append, List.mem_append]
  rintro (h | h)
  · exact (hclean h).2 rfl
  · exact hbehind h

theorem appendPieces_concat (extension path : String) (inner : List String) (last : String) :
    appendPieces extension path (inner ++ [last]) =
      (inner ++ [last ++ extension]).foldl Path.join path := by
  induction inner generalizing path with
  | nil => rfl
  | cons piece inner ih =>
    have hne : inner ++ [last] ≠ [] := List.append_ne_nil_of_right_ne_nil _ (List.cons_ne_nil _ _)
    rw [List.cons_append, appendPieces, ih, List.cons_append, List.foldl_cons]
    exact hne

theorem slash_notMem_dotted {extension : String} (h : '/' ∉ extension.toList) :
    '/' ∉ (dotted extension).toList := by
  rw [dotted]
  split
  · exact h
  · rw [String.toList_append]
    simpa using h

section

variable {root extension name path : String}

/-- A name has a path if none of its pieces is empty or has a backslash in it, and what is appended to
the root are the pieces. -/
theorem pathFor?_eq_some_iff : (ofExtension root extension).pathFor? name = some path ↔
    (∀ piece ∈ pieces name, piece ≠ "" ∧ '\x5c' ∉ piece.toList) ∧
      ∃ inner last, pieces name = inner ++ [last] ∧
        path = (inner ++ [last ++ dotted extension]).foldl Path.join root := by
  have hall : (pieces name).all isPiece = true ↔
      ∀ piece ∈ pieces name, piece ≠ "" ∧ '\x5c' ∉ piece.toList := by
    simp only [List.all_eq_true, isPiece_iff]
  have hlast := List.dropLast_append_getLast (pieces_ne_nil name)
  rw [pathFor?, ← hall]
  constructor
  · intro h
    split at h
    · rename_i hpieces
      refine ⟨hpieces, _, _, hlast.symm, ?_⟩
      rw [← hlast, appendPieces_concat] at h
      exact (Option.some.inj h).symm
    · cases h
  · rintro ⟨hpieces, inner, last, hcut, rfl⟩
    rw [if_pos hpieces, hcut, appendPieces_concat]
    rfl

theorem descends_of_pathFor? (hextension : '/' ∉ extension.toList) {inner : List String}
    {last : String} (hcut : pieces name = inner ++ [last])
    (hpieces : ∀ piece ∈ pieces name, piece ≠ "" ∧ '\x5c' ∉ piece.toList) :
    ∀ part ∈ inner ++ [last ++ dotted extension], Path.Descends part := by
  intro part hpart
  rcases List.mem_append.1 hpart with hinner | hlast
  · have hmem : part ∈ pieces name := hcut ▸ List.mem_append_left _ hinner
    have hdescends : Path.Descends (part ++ "") :=
      descends_append hmem (hpieces part hmem).1 (by simp)
    rwa [String.append_empty] at hdescends
  · have hmem : last ∈ pieces name := hcut ▸ List.mem_append_right _ (List.mem_singleton_self last)
    rw [List.mem_singleton.1 hlast]
    exact descends_append hmem (hpieces last hmem).1 (slash_notMem_dotted hextension)

/-- View names never lead out of the directory of views. A name has a path exactly when none of its
pieces is empty or has a backslash in it; the path is that of the directory, followed by the pieces,
with slashes between them and the extension after the last. Each piece is a component of the path,
one that leads down, so names have one path exactly when they have the same pieces, which they have
when they differ in nothing but which separators are dots and which are slashes. -/
theorem pathFor?_within (hextension : '/' ∉ extension.toList) :
    let v := ofExtension root extension
    (∀ name, (v.pathFor? name).isSome ↔
      ∀ piece ∈ pieces name, piece ≠ "" ∧ '\x5c' ∉ piece.toList) ∧
    (∀ name path, v.pathFor? name = some path → ∃ inner last, pieces name = inner ++ [last] ∧
      path = Path.directory root ++ "/".intercalate (inner ++ [last ++ dotted extension]) ∧
      Path.components path = Path.components root ++ (inner ++ [last ++ dotted extension]) ∧
      ∀ part ∈ inner ++ [last ++ dotted extension], Path.Descends part) ∧
    (∀ name name' path path', v.pathFor? name = some path → v.pathFor? name' = some path' →
      (path = path' ↔ pieces name = pieces name') ∧
      (Path.components path = Path.components path' ↔ pieces name = pieces name')) ∧
    ∀ name name', pieces name = pieces name' ↔ slashed name = slashed name' := by
  intro v
  have hwhole (name path : String) (hpath : v.pathFor? name = some path) :
      ∃ inner last, pieces name = inner ++ [last] ∧
        path = Path.directory root ++ "/".intercalate (inner ++ [last ++ dotted extension]) ∧
        Path.components path = Path.components root ++ (inner ++ [last ++ dotted extension]) ∧
        ∀ part ∈ inner ++ [last ++ dotted extension], Path.Descends part := by
    obtain ⟨hpieces, inner, last, hcut, rfl⟩ := pathFor?_eq_some_iff.1 hpath
    have hdescends := descends_of_pathFor? hextension hcut hpieces
    exact ⟨inner, last, hcut, Path.foldl_join (by simp) hdescends,
      Path.components_foldl_join hdescends, hdescends⟩
  refine ⟨fun name => ?_, hwhole, fun name name' path path' hpath hpath' => ?_,
    fun _ _ => pieces_eq_pieces_iff⟩
  · rw [Option.isSome_iff_exists]
    constructor
    · rintro ⟨path, hpath⟩
      exact (pathFor?_eq_some_iff.1 hpath).1
    · intro hpieces
      have hlast := List.dropLast_append_getLast (pieces_ne_nil name)
      exact ⟨_, pathFor?_eq_some_iff.2 ⟨hpieces, _, _, hlast.symm, rfl⟩⟩
  · obtain ⟨inner, last, hcut, -, hcomponents, -⟩ := hwhole name path hpath
    obtain ⟨inner', last', hcut', -, hcomponents', -⟩ := hwhole name' path' hpath'
    have hpieces (h : Path.components path = Path.components path') :
        pieces name = pieces name' := by
      rw [hcomponents, hcomponents'] at h
      obtain ⟨hinner, hlast⟩ := List.append_inj' (List.append_cancel_left h) rfl
      have hsame := congrArg String.toList (List.head_eq_of_cons_eq hlast)
      rw [String.toList_append, String.toList_append] at hsame
      rw [hcut, hcut', hinner, String.toList_inj.1 (List.append_cancel_right hsame)]
    have hpath_eq (h : pieces name = pieces name') : path = path' := by
      rw [pathFor?, h] at hpath
      exact Option.some.inj (hpath.symm.trans hpath')
    exact ⟨⟨fun h => hpieces (congrArg _ h), hpath_eq⟩,
      ⟨hpieces, fun h => congrArg _ (hpath_eq h)⟩⟩

/-- Dots and slashes in one name, and an extension that is given without its dot. -/
theorem pathFor?_within_views : '/' ∉ "html".toList ∧
    (ofExtension "/views" "html").pathFor? "admin/users.list" =
      some "/views/admin/users/list.html" ∧
    Path.components "/views/admin/users/list.html" =
      Path.components "/views" ++ ["admin", "users", "list.html"] ∧
    ∀ part ∈ ["admin", "users", "list.html"], Path.Descends part := by
  have hextension : '/' ∉ "html".toList := by decide
  have hpath : (ofExtension "/views" "html").pathFor? "admin/users.list" =
      some "/views/admin/users/list.html" := by
    decide +kernel
  have hpieces : pieces "admin/users.list" = ["admin", "users"] ++ ["list"] := by decide +kernel
  obtain ⟨-, hwhole, -⟩ := pathFor?_within hextension
  obtain ⟨inner, last, hcut, -, hcomponents, hdescends⟩ := hwhole _ _ hpath
  rw [hpieces] at hcut
  obtain ⟨rfl, hlast⟩ := List.append_inj' hcut rfl
  obtain rfl := List.head_eq_of_cons_eq hlast
  have hfile : "list" ++ dotted "html" = "list.html" := by decide +kernel
  rw [hfile] at hcomponents hdescends
  exact ⟨hextension, hpath, hcomponents, hdescends⟩

end

end Templating.ViewFiles
