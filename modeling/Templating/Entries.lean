/-!
# Ordered entries

Names with values, in the order in which the names were first written. Maps of template data, the
variables of a context and the sections of a page are all kept so. `insert` replaces the value of a
known name in its place and appends a new one; `erase` moves the last entry into the gap.
-/

namespace Templating

abbrev Entries (α : Type) := List (String × α)

namespace Entries

variable {α β : Type}

def find? (name : String) : Entries α → Option α
  | [] => none
  | (key, value) :: rest => if key = name then some value else find? name rest

def contains (name : String) (entries : Entries α) : Bool :=
  (find? name entries).isSome

def names (entries : Entries α) : List String :=
  entries.map (·.1)

/-- Sets the value of a name: in place when the name is known, else at the end. -/
def insert (name : String) (value : α) : Entries α → Entries α
  | [] => [(name, value)]
  | (key, old) :: rest =>
    if key = name then (name, value) :: rest else (key, old) :: insert name value rest

def rotateLast (entries : Entries α) : Entries α :=
  match entries.getLast? with
  | none => []
  | some last => last :: entries.dropLast

/-- Takes a name out; the last entry moves into the gap. -/
def erase (name : String) : Entries α → Entries α
  | [] => []
  | (key, value) :: rest =>
    if key = name then rotateLast rest else (key, value) :: erase name rest

def insertAll (entries added : Entries α) : Entries α :=
  added.foldl (fun es (name, value) => insert name value es) entries

@[simp] theorem find?_nil (name : String) : find? name ([] : Entries α) = none := rfl

theorem find?_cons (name key : String) (value : α) (rest : Entries α) :
    find? name ((key, value) :: rest) = if key = name then some value else find? name rest := rfl

@[simp] theorem names_nil : names ([] : Entries α) = [] := rfl

@[simp] theorem names_cons (key : String) (value : α) (rest : Entries α) :
    names ((key, value) :: rest) = key :: names rest := rfl

theorem find?_insert (name other : String) (value : α) (entries : Entries α) :
    find? other (insert name value entries) =
      if other = name then some value else find? other entries := by
  induction entries with
  | nil => simp [insert, find?, eq_comm]
  | cons entry rest ih =>
    obtain ⟨key, old⟩ := entry
    by_cases hk : key = name
    · subst hk
      by_cases ho : key = other
      · simp [insert, find?, ho]
      · simp [insert, find?, ho, Ne.symm ho]
    · by_cases ho : key = other
      · subst ho
        simp [insert, find?, hk]
      · simp [insert, find?, hk, ho, ih]

theorem names_insert (name : String) (value : α) (entries : Entries α) :
    names (insert name value entries) =
      if name ∈ names entries then names entries else names entries ++ [name] := by
  induction entries with
  | nil => simp [insert]
  | cons entry rest ih =>
    obtain ⟨key, old⟩ := entry
    by_cases hk : key = name
    · simp [insert, hk]
    · have hk' : ¬name = key := fun h => hk h.symm
      simp only [insert, hk, if_false, names_cons, ih, List.mem_cons, hk', false_or]
      split <;> simp

theorem find?_eq_none_iff {name : String} {entries : Entries α} :
    find? name entries = none ↔ name ∉ names entries := by
  induction entries with
  | nil => simp
  | cons entry rest ih =>
    obtain ⟨key, value⟩ := entry
    by_cases hk : key = name
    · simp [find?_cons, hk]
    · have hk' : ¬name = key := fun h => hk h.symm
      simp [find?_cons, hk, hk', ih]

theorem mem_of_find? {name : String} {value : α} {entries : Entries α}
    (h : find? name entries = some value) : (name, value) ∈ entries := by
  induction entries with
  | nil => cases h
  | cons entry rest ih =>
    obtain ⟨key, other⟩ := entry
    rw [find?_cons] at h
    split at h
    · rename_i hkey
      cases h
      rw [hkey]
      exact List.mem_cons_self
    · exact List.mem_cons_of_mem _ (ih h)

theorem mem_iff_find?_eq_some {entries : Entries α} (h : (names entries).Nodup) {name : String}
    {value : α} : (name, value) ∈ entries ↔ find? name entries = some value := by
  refine ⟨fun hmem => ?_, mem_of_find?⟩
  induction entries with
  | nil => cases hmem
  | cons entry rest ih =>
    obtain ⟨key, other⟩ := entry
    rw [names_cons, List.nodup_cons] at h
    rw [find?_cons]
    rcases List.mem_cons.1 hmem with heq | hrest
    · cases heq
      exact if_pos rfl
    · have hkey : key ≠ name := fun hkey => h.1 (hkey ▸ List.mem_map_of_mem hrest)
      rw [if_neg hkey, ih h.2 hrest]

theorem contains_eq_true_iff {name : String} {entries : Entries α} :
    contains name entries = true ↔ name ∈ names entries := by
  rw [contains, Option.isSome_iff_ne_none, ne_eq, find?_eq_none_iff, Decidable.not_not]

theorem insert_of_not_mem {name : String} {entries : Entries α} (h : name ∉ names entries)
    (value : α) : insert name value entries = entries ++ [(name, value)] := by
  induction entries with
  | nil => rfl
  | cons entry rest ih =>
    obtain ⟨key, old⟩ := entry
    rw [names_cons, List.mem_cons, not_or] at h
    have hk : ¬key = name := fun hk => h.1 hk.symm
    simp [insert, hk, ih h.2]

theorem eq_or_mem_of_mem_insert {name : String} {value : α} {entry : String × α}
    {entries : Entries α} (h : entry ∈ insert name value entries) :
    entry = (name, value) ∨ entry ∈ entries := by
  induction entries with
  | nil => exact .inl (List.mem_singleton.1 h)
  | cons first rest ih =>
    obtain ⟨key, old⟩ := first
    rw [insert] at h
    split at h <;> rcases List.mem_cons.1 h with rfl | h
    · exact .inl rfl
    · exact .inr (List.mem_cons_of_mem _ h)
    · exact .inr List.mem_cons_self
    · exact (ih h).imp_right (List.mem_cons_of_mem _)

theorem nodup_names_insert {entries : Entries α} (h : (names entries).Nodup) (name : String)
    (value : α) : (names (insert name value entries)).Nodup := by
  rw [names_insert]
  split
  · exact h
  · rename_i hname
    refine List.nodup_append.2 ⟨h, List.pairwise_singleton _ _, fun a ha b hb => ?_⟩
    obtain rfl := List.mem_singleton.1 hb
    exact fun hab => hname (hab ▸ ha)

theorem insertAll_cons (entries : Entries α) (name : String) (value : α) (added : Entries α) :
    insertAll entries ((name, value) :: added) = insertAll (insert name value entries) added := rfl

theorem nodup_names_insertAll {entries : Entries α} (h : (names entries).Nodup)
    (added : Entries α) : (names (insertAll entries added)).Nodup := by
  induction added generalizing entries with
  | nil => exact h
  | cons entry added ih => exact ih (nodup_names_insert h entry.1 entry.2)

theorem find?_insertAll {added : Entries α} (h : (names added).Nodup) (name : String)
    (entries : Entries α) :
    find? name (insertAll entries added) = (find? name added).or (find? name entries) := by
  induction added generalizing entries with
  | nil => rfl
  | cons entry added ih =>
    obtain ⟨key, value⟩ := entry
    rw [names_cons, List.nodup_cons] at h
    rw [insertAll_cons, ih h.2, find?_insert, find?_cons]
    by_cases hk : key = name
    · subst hk
      simp [find?_eq_none_iff.2 h.1]
    · have hk' : ¬name = key := fun h => hk h.symm
      simp [hk, hk']

theorem names_append (entries added : Entries α) :
    names (entries ++ added) = names entries ++ names added :=
  List.map_append

theorem names_map (f : α → β) (entries : Entries α) :
    names (entries.map fun entry => (entry.1, f entry.2)) = names entries :=
  List.map_map

theorem find?_map (f : α → β) (name : String) (entries : Entries α) :
    find? name (entries.map fun entry => (entry.1, f entry.2)) = (find? name entries).map f := by
  induction entries with
  | nil => rfl
  | cons entry rest ih =>
    obtain ⟨key, value⟩ := entry
    by_cases hk : key = name
    · simp [find?_cons, hk]
    · simp [find?_cons, hk, ih]

theorem names_zip_sublist (keys : List String) (values : List α) :
    (names (keys.zip values)).Sublist keys := by
  induction keys generalizing values with
  | nil => exact .slnil
  | cons key keys ih =>
    cases values with
    | nil => exact List.nil_sublist _
    | cons value values => exact (ih values).cons_cons key

end Entries

end Templating
