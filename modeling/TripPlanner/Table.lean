/-!
# Tables

A table holds one value for each of its keys and lists them in the order in which the keys were
first put in. Writing a key again replaces its value in place.

The main facts are the look-up equations `Table.get?_insert` and `Table.get?_erase`.
-/

namespace TripPlanner

/-- Values by key, in the order in which the keys came in. -/
structure Table (κ α : Type) where
  /-- Keys with their values. -/
  entries : List (κ × α)
  /-- A key has one value. -/
  nodup : (entries.map Prod.fst).Nodup

namespace Table

variable {κ α : Type}

/-- The table without keys. -/
def empty : Table κ α := ⟨[], by simp⟩

instance : EmptyCollection (Table κ α) := ⟨empty⟩

instance : Inhabited (Table κ α) := ⟨empty⟩

/-- The keys, in order. -/
def keys (table : Table κ α) : List κ := table.entries.map Prod.fst

/-- The values, in the order of their keys. -/
def values (table : Table κ α) : List α := table.entries.map Prod.snd

/-- The number of keys. -/
def size (table : Table κ α) : Nat := table.entries.length

/-- Whether there are no keys. -/
def isEmpty (table : Table κ α) : Bool := table.entries.isEmpty

/-- Keeps the keys whose value maps to something, with that. -/
def filterMap {β : Type} (table : Table κ α) (f : κ → α → Option β) : Table κ β where
  entries := table.entries.filterMap fun entry => (f entry.1 entry.2).map (entry.1, ·)
  nodup := by
    refine (?_ : List.Sublist _ (table.entries.map Prod.fst)).nodup table.nodup
    induction table.entries with
    | nil => simp
    | cons entry rest ih =>
      cases h : f entry.1 entry.2 with
      | none => simpa [List.filterMap_cons, h] using ih.cons entry.1
      | some b => simpa [List.filterMap_cons, h] using ih

section
variable [DecidableEq κ]

/-- The value of a key. -/
def get? (table : Table κ α) (key : κ) : Option α :=
  (table.entries.find? fun entry => entry.1 = key).map Prod.snd

/-- Whether the key has a value. -/
def contains (table : Table κ α) (key : κ) : Bool := (table.get? key).isSome

/-- Gives a key a value: in place if the key is there, at the end if it is new. -/
def insert (table : Table κ α) (key : κ) (value : α) : Table κ α :=
  if h : key ∈ table.entries.map Prod.fst then
    { entries := table.entries.map fun entry => if entry.1 = key then (key, value) else entry
      nodup := by
        have : (table.entries.map fun entry => if entry.1 = key then (key, value) else entry).map
            Prod.fst = table.entries.map Prod.fst := by
          rw [List.map_map]
          refine List.map_congr_left fun entry _ => ?_
          by_cases hkey : entry.1 = key <;> simp [hkey]
        rw [this]
        exact table.nodup }
  else
    { entries := table.entries ++ [(key, value)]
      nodup := by
        rw [List.map_append, List.nodup_append]
        refine ⟨table.nodup, by simp, ?_⟩
        rintro a ha b hb rfl
        simp only [List.map_cons, List.map_nil, List.mem_singleton] at hb
        exact h (hb ▸ ha) }

/-- Removes a key and its value. -/
def erase (table : Table κ α) (key : κ) : Table κ α :=
  table.filterMap fun k value => if k = key then none else some value

/-- The table of the given entries; of two values for a key the later one counts. -/
def ofList (entries : List (κ × α)) : Table κ α :=
  entries.foldl (fun table entry => table.insert entry.1 entry.2) empty

end

/-! ## Look-up -/

section
variable [DecidableEq κ]

theorem get?_eq_some_iff {table : Table κ α} {key : κ} {value : α} :
    table.get? key = some value ↔ (key, value) ∈ table.entries := by
  have hnodup := table.nodup
  unfold get?
  revert hnodup
  induction table.entries with
  | nil => simp
  | cons entry rest ih =>
    obtain ⟨k, v⟩ := entry
    intro hnodup
    simp only [List.map_cons, List.nodup_cons, List.mem_map, not_exists, not_and] at hnodup
    by_cases h : k = key
    · subst h
      simp only [List.find?_cons, decide_true, Option.map_some, Option.some.injEq, List.mem_cons,
        Prod.mk.injEq, true_and]
      constructor
      · rintro rfl
        exact .inl rfl
      · rintro (rfl | hmem)
        · rfl
        · exact (hnodup.1 _ hmem rfl).elim
    · have hne : key ≠ k := fun hk => h hk.symm
      simpa [List.find?_cons, h, hne] using ih hnodup.2

theorem mem_keys_iff {table : Table κ α} {key : κ} :
    key ∈ table.keys ↔ ∃ value, table.get? key = some value := by
  simp [keys, get?_eq_some_iff]

theorem get?_eq_none_iff {table : Table κ α} {key : κ} :
    table.get? key = none ↔ key ∉ table.keys := by
  rw [mem_keys_iff]
  cases table.get? key <;> simp

@[simp] theorem get?_empty (key : κ) : (empty : Table κ α).get? key = none := rfl

theorem get?_filterMap {β : Type} (table : Table κ α) (f : κ → α → Option β) (key : κ) :
    (table.filterMap f).get? key = (table.get? key).bind (f key) := by
  refine Option.ext fun b => ?_
  rw [get?_eq_some_iff, Option.bind_eq_some_iff]
  simp only [filterMap, List.mem_filterMap, Option.map_eq_some_iff, get?_eq_some_iff]
  constructor
  · rintro ⟨⟨k, v⟩, hmem, b', hb', heq⟩
    obtain ⟨rfl, rfl⟩ := Prod.mk.injEq .. ▸ heq
    exact ⟨v, hmem, hb'⟩
  · rintro ⟨v, hmem, hb⟩
    exact ⟨(key, v), hmem, b, hb, rfl⟩

omit [DecidableEq κ] in
theorem ext_entries {table other : Table κ α} (h : table.entries = other.entries) :
    table = other := by
  obtain ⟨entries, _⟩ := table
  obtain ⟨entries', _⟩ := other
  cases h
  rfl

/-- Two tables are equal if they have the same keys in the same order, and the same values. -/
theorem ext_get? {table other : Table κ α} (hkeys : table.keys = other.keys)
    (h : ∀ key, table.get? key = other.get? key) : table = other := by
  have hlength : table.entries.length = other.entries.length := by
    simpa [keys] using congrArg List.length hkeys
  refine ext_entries (List.ext_getElem hlength fun i hi hi' => ?_)
  have hkey : table.entries[i].1 = other.entries[i].1 := by
    simpa [keys, hi, hi'] using congrArg (fun keys => keys[i]?) hkeys
  have hvalue : table.get? table.entries[i].1 = some table.entries[i].2 :=
    get?_eq_some_iff.2 (List.getElem_mem hi)
  have hvalue' : other.get? other.entries[i].1 = some other.entries[i].2 :=
    get?_eq_some_iff.2 (List.getElem_mem hi')
  rw [h, hkey, hvalue'] at hvalue
  exact Prod.ext hkey (Option.some.inj hvalue).symm

omit [DecidableEq κ] in
theorem entries_filterMap {β : Type} (table : Table κ α) (f : κ → α → Option β) :
    (table.filterMap f).entries =
      table.entries.filterMap fun entry => (f entry.1 entry.2).map (entry.1, ·) := rfl

omit [DecidableEq κ] in
theorem filterMap_eq_self {table : Table κ α} {f : κ → α → Option α}
    (h : ∀ entry ∈ table.entries, f entry.1 entry.2 = some entry.2) :
    table.filterMap f = table := by
  refine ext_entries ?_
  unfold filterMap
  dsimp only
  revert h
  induction table.entries with
  | nil => exact fun _ => rfl
  | cons entry entries ih =>
    intro h
    rw [List.filterMap_cons, h entry List.mem_cons_self,
      ih fun entry hmem => h entry (List.mem_cons_of_mem _ hmem)]
    rfl

theorem get?_insert (table : Table κ α) (key : κ) (value : α) (k : κ) :
    (table.insert key value).get? k = if k = key then some value else table.get? k := by
  refine Option.ext fun v => ?_
  rw [get?_eq_some_iff]
  unfold insert
  split
  · rename_i h
    simp only [List.mem_map]
    by_cases hk : k = key
    · subst hk
      simp only [if_true, Option.some.injEq]
      constructor
      · rintro ⟨entry, -, heq⟩
        by_cases he : entry.1 = k
        · simpa [he] using heq
        · rw [if_neg he] at heq
          exact (he (by rw [heq])).elim
      · rintro rfl
        obtain ⟨entry, hmem, rfl⟩ := List.mem_map.1 h
        exact ⟨entry, hmem, by simp⟩
    · rw [if_neg hk, get?_eq_some_iff]
      constructor
      · rintro ⟨entry, hmem, heq⟩
        by_cases he : entry.1 = key
        · rw [if_pos he] at heq
          exact (hk (congrArg Prod.fst heq).symm).elim
        · rw [if_neg he] at heq
          exact heq ▸ hmem
      · exact fun hmem => ⟨(k, v), hmem, by simp [hk]⟩
  · rename_i h
    by_cases hk : k = key
    · subst hk
      have hnot : (k, v) ∉ table.entries := fun hmem => h (List.mem_map_of_mem hmem)
      simp [hnot, eq_comm]
    · simp [hk, get?_eq_some_iff]

theorem get?_erase (table : Table κ α) (key k : κ) :
    (table.erase key).get? k = if k = key then none else table.get? k := by
  rw [erase, get?_filterMap]
  by_cases h : k = key <;> cases table.get? k <;> simp [h]

/-! ## Keys and sizes -/

omit [DecidableEq κ] in
theorem size_eq_length_keys (table : Table κ α) : table.size = table.keys.length :=
  (List.length_map _).symm

theorem keys_insert (table : Table κ α) (key : κ) (value : α) : (table.insert key value).keys =
    if key ∈ table.keys then table.keys else table.keys ++ [key] := by
  unfold insert keys
  split
  · rw [List.map_map]
    refine List.map_congr_left fun entry _ => ?_
    by_cases h : entry.1 = key <;> simp [h]
  · simp

theorem entries_erase (table : Table κ α) (key : κ) :
    (table.erase key).entries = table.entries.filter fun entry => entry.1 != key := by
  rw [← List.filterMap_eq_filter]
  refine congrArg (List.filterMap · table.entries) (funext fun entry => ?_)
  by_cases h : entry.1 = key <;> simp [Option.guard, h]

theorem entries_foldl_erase (table : Table κ α) (keys : List κ) :
    (keys.foldl erase table).entries = table.entries.filter fun entry => entry.1 ∉ keys := by
  induction keys generalizing table with
  | nil => exact (List.filter_eq_self.2 fun _ _ => decide_eq_true List.not_mem_nil).symm
  | cons key keys ih =>
    rw [List.foldl_cons, ih, entries_erase, List.filter_filter]
    refine List.filter_congr fun entry _ => ?_
    by_cases h : entry.1 = key <;> simp [h]

theorem keys_erase (table : Table κ α) (key : κ) :
    (table.erase key).keys = table.keys.erase key := by
  have hnodup : table.keys.Nodup := table.nodup
  rw [hnodup.erase_eq_filter, keys, entries_erase, keys, List.filter_map]
  rfl

theorem size_insert (table : Table κ α) (key : κ) (value : α) :
    (table.insert key value).size = table.size + if key ∈ table.keys then 0 else 1 := by
  rw [size_eq_length_keys, size_eq_length_keys, keys_insert]
  split <;> simp

theorem size_erase (table : Table κ α) (key : κ) :
    (table.erase key).size + (if key ∈ table.keys then 1 else 0) = table.size := by
  rw [size_eq_length_keys, size_eq_length_keys, keys_erase, List.length_erase]
  split
  · exact Nat.sub_add_cancel (List.length_pos_of_mem ‹_›)
  · rfl

end

end Table

end TripPlanner
