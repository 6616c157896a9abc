/-!
# Tables

Values under distinct texts, in the order in which the texts were first inserted. Main statements: what is
found after an insertion or a removal, and that every key is found.
-/

namespace PodMachines

/-- The entries of a list with one value put under a key, in the key's place if it has one, else at the end. -/
def putEntry {α : Type} (key : String) (value : α) : List (String × α) → List (String × α)
  | [] => [(key, value)]
  | (k, v) :: rest => if k = key then (key, value) :: rest else (k, v) :: putEntry key value rest

theorem keys_putEntry {α : Type} (key : String) (value : α) (entries : List (String × α)) :
    (putEntry key value entries).map (·.1) =
      if key ∈ entries.map (·.1) then entries.map (·.1) else entries.map (·.1) ++ [key] := by
  induction entries with
  | nil => simp [putEntry]
  | cons e rest ih =>
    obtain ⟨k, v⟩ := e
    by_cases h : k = key
    · simp [putEntry, h]
    · have h' : ¬key = k := fun e => h e.symm
      simp only [putEntry, h, if_false, List.map_cons, ih, List.mem_cons, h', false_or]
      split <;> simp

/-- Values under distinct texts. -/
structure Table (α : Type) where
  entries : List (String × α)
  nodup : (entries.map (·.1)).Nodup
  deriving DecidableEq

namespace Table
variable {α β : Type}

/-- No entries. -/
def empty : Table α :=
  ⟨[], by simp⟩

instance : Inhabited (Table α) := ⟨empty⟩

/-- The value under a key. -/
def find? (t : Table α) (key : String) : Option α :=
  (t.entries.find? (·.1 = key)).map (·.2)

/-- Whether there is a value under a key. -/
def contains (t : Table α) (key : String) : Bool :=
  t.entries.any (·.1 = key)

/-- The keys. -/
def keys (t : Table α) : List String :=
  t.entries.map (·.1)

/-- The values. -/
def values (t : Table α) : List α :=
  t.entries.map (·.2)

/-- With a value put under a key, where it replaces an earlier one. -/
def insert (t : Table α) (key : String) (value : α) : Table α :=
  ⟨putEntry key value t.entries, by
    rw [keys_putEntry]
    split
    · exact t.nodup
    · rename_i h
      refine List.nodup_append.mpr ⟨t.nodup, by simp, ?_⟩
      intro a ha b hb e
      rw [List.mem_singleton.mp hb] at e
      exact h (e ▸ ha)⟩

/-- Without what is under a key. -/
def erase (t : Table α) (key : String) : Table α :=
  ⟨t.entries.filter (·.1 ≠ key), (List.filter_sublist.map _).nodup t.nodup⟩

/-- The table of pairs, of which the last under a key counts. -/
def ofList (pairs : List (String × α)) : Table α :=
  pairs.foldl (fun t (key, value) => t.insert key value) empty

/-- Whether every pair of the first table is in the second. -/
def within [DecidableEq α] (small large : Table α) : Bool :=
  small.entries.all fun (key, value) => large.find? key = some value

/-! ### Laws -/

@[simp] theorem find?_empty (key : String) : (empty : Table α).find? key = none := rfl

theorem find?_putEntry (key other : String) (value : α) (entries : List (String × α)) :
    ((putEntry key value entries).find? (·.1 = other)).map (·.2) =
      if key = other then some value else (entries.find? (·.1 = other)).map (·.2) := by
  induction entries with
  | nil => by_cases h : key = other <;> simp [putEntry, h]
  | cons e rest ih =>
    obtain ⟨k, v⟩ := e
    by_cases h : k = key
    · subst h
      by_cases ho : k = other <;> simp [putEntry, ho]
    · simp only [putEntry, h, if_false]
      by_cases ho : k = other
      · subst ho
        have : ¬key = k := fun e => h e.symm
        simp [this]
      · simp only [List.find?_cons, ho, decide_false]
        exact ih

/-- After an insertion the key has the new value, and every other key what it had. -/
theorem find?_insert (t : Table α) (key other : String) (value : α) :
    (t.insert key value).find? other = if key = other then some value else t.find? other :=
  find?_putEntry key other value t.entries

/-- After a removal the key has nothing, and every other key what it had. -/
theorem find?_erase (t : Table α) (key other : String) :
    (t.erase key).find? other = if key = other then none else t.find? other := by
  unfold find? erase
  rw [List.find?_filter]
  by_cases h : key = other
  · subst h
    simp
  · simp only [h, if_false]
    congr 2
    funext e
    by_cases he : e.1 = other
    · simp [he, show ¬other = key from fun e' => h e'.symm]
    · simp [he]

theorem mem_keys_iff {t : Table α} {key : String} : key ∈ t.keys ↔ ∃ value, t.find? key = some value := by
  unfold keys find?
  constructor
  · intro h
    obtain ⟨e, he, rfl⟩ := List.mem_map.mp h
    cases hf : t.entries.find? (·.1 = e.1) with
    | none => simpa using List.find?_eq_none.mp hf e he
    | some x => exact ⟨x.2, rfl⟩
  · rintro ⟨value, h⟩
    obtain ⟨x, hx, rfl⟩ := Option.map_eq_some_iff.mp h
    have := List.find?_some hx
    have hm := List.mem_of_find?_eq_some hx
    simp only [decide_eq_true_eq] at this
    exact List.mem_map.mpr ⟨x, hm, this⟩

/-- An entry is what is found under its key. -/
theorem find?_of_mem {t : Table α} {key : String} {value : α} (h : (key, value) ∈ t.entries) :
    t.find? key = some value := by
  obtain ⟨entries, nodup⟩ := t
  unfold find?
  simp only at h ⊢
  induction entries with
  | nil => simp at h
  | cons e rest ih =>
    obtain ⟨k, v⟩ := e
    simp only [List.map_cons, List.nodup_cons] at nodup
    rcases List.mem_cons.mp h with h | h
    · obtain ⟨rfl, rfl⟩ := Prod.mk.inj h
      simp
    · by_cases hk : k = key
      · exact absurd (List.mem_map.mpr ⟨_, h, hk.symm⟩) nodup.1
      · simp only [List.find?_cons, hk, decide_false]
        exact ih nodup.2 h

theorem contains_iff {t : Table α} {key : String} : t.contains key = true ↔ key ∈ t.keys := by
  simp [contains, keys]

/-- What is found under a key is among the values. -/
theorem mem_values_of_find? {t : Table α} {key : String} {value : α} (h : t.find? key = some value) :
    value ∈ t.values := by
  obtain ⟨e, he, rfl⟩ := Option.map_eq_some_iff.mp h
  exact List.mem_map_of_mem (List.mem_of_find?_eq_some he)

end Table
end PodMachines
