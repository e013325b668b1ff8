/-!
# Arenas

An arena keeps items under small indices. An item keeps its index for as long as it lives; the
index of an erased item is handed out again, the most recently released one first. Items are
listed newest first.

The main facts are the look-up equations `Arena.get?_insert` and `Arena.get?_erase`.
-/

namespace TripPlanner

/-- Items under reusable indices, the newest item first. -/
structure Arena (α : Type) where
  /-- Live items with their indices, the newest first. -/
  entries : List (Nat × α)
  /-- Released indices, the most recently released first. -/
  released : List Nat
  /-- The least index that was never handed out. -/
  bound : Nat
  /-- An index is held once, by an item or among the released. -/
  nodup : (entries.map Prod.fst ++ released).Nodup
  /-- Every index was handed out. -/
  lt_bound : ∀ i ∈ entries.map Prod.fst ++ released, i < bound

namespace Arena

variable {α : Type}

/-- The arena without items. -/
def empty : Arena α := ⟨[], [], 0, by simp, by simp⟩

instance : EmptyCollection (Arena α) := ⟨empty⟩

instance : Inhabited (Arena α) := ⟨empty⟩

/-- The item under an index. -/
def get? (arena : Arena α) (i : Nat) : Option α := arena.entries.lookup i

/-- Whether an item lives under the index. -/
def contains (arena : Arena α) (i : Nat) : Bool := (arena.get? i).isSome

/-- The number of live items. -/
def size (arena : Arena α) : Nat := arena.entries.length

/-- The index that the next item gets. -/
def next (arena : Arena α) : Nat := arena.released.headD arena.bound

/-- The live indices, the newest item's first. -/
def indices (arena : Arena α) : List Nat := arena.entries.map Prod.fst

/-- Live items with their indices, by index. -/
def toList (arena : Arena α) : List (Nat × α) :=
  (List.range arena.bound).filterMap fun i => (arena.get? i).map (i, ·)

/-- The items whose entry passes the test, the newest first. -/
def filter (arena : Arena α) (keep : α → Bool) : List (Nat × α) :=
  arena.entries.filter fun entry => keep entry.2

/-- Adds an item under the index `next`. -/
def insert (arena : Arena α) (a : α) : Arena α :=
  match arena with
  | ⟨entries, [], bound, nodup, lt_bound⟩ =>
    ⟨(bound, a) :: entries, [], bound + 1,
      by
        simp only [List.append_nil] at nodup lt_bound
        simp only [List.map_cons, List.append_nil, List.nodup_cons]
        exact ⟨fun h => Nat.lt_irrefl _ (lt_bound _ h), nodup⟩,
      by
        simp only [List.append_nil] at lt_bound
        simp only [List.map_cons, List.append_nil, List.mem_cons]
        rintro i (rfl | h)
        · exact Nat.lt_succ_self _
        · exact Nat.lt_succ_of_lt (lt_bound i h)⟩
  | ⟨entries, i :: released, bound, nodup, lt_bound⟩ =>
    ⟨(i, a) :: entries, released, bound,
      (List.perm_middle.nodup_iff.1 nodup :),
      fun j h => lt_bound j (List.perm_middle.mem_iff.2 h)⟩

/-- Removes the item under an index, if there is one, and releases the index. -/
def erase (arena : Arena α) (i : Nat) : Arena α :=
  if h : i ∈ arena.entries.map Prod.fst then
    { entries := arena.entries.filter fun entry => entry.1 != i
      released := i :: arena.released
      bound := arena.bound
      nodup := by
        have hsub : (arena.entries.filter fun entry => entry.1 != i).map Prod.fst =
            (arena.entries.map Prod.fst).filter (· != i) := by
          simp [List.filter_map, Function.comp_def]
        rw [hsub]
        refine List.perm_middle.nodup_iff.2 ?_
        have hall := arena.nodup
        rw [List.nodup_append] at hall
        obtain ⟨hlive, hreleased, hdisjoint⟩ := hall
        simp only [List.nodup_cons, List.nodup_append, List.mem_append, List.mem_filter]
        refine ⟨?_, hlive.filter _, hreleased, fun a ha b hb => hdisjoint a ha.1 b hb⟩
        rintro (hi | hi)
        · simp at hi
        · exact hdisjoint i h i hi rfl
      lt_bound := by
        intro j hj
        simp only [List.mem_append, List.mem_cons, List.mem_map, List.mem_filter] at hj
        rcases hj with ⟨entry, ⟨hentry, -⟩, rfl⟩ | rfl | hj
        · exact arena.lt_bound _ (List.mem_append_left _ (List.mem_map_of_mem hentry))
        · exact arena.lt_bound _ (List.mem_append_left _ h)
        · exact arena.lt_bound _ (List.mem_append_right _ hj) }
  else arena

/-- Removes the items under the given indices, one after another. -/
def eraseAll (arena : Arena α) (is : List Nat) : Arena α := is.foldl erase arena

/-! ## Look-up -/

theorem get?_eq_some_iff {arena : Arena α} {i : Nat} {a : α} :
    arena.get? i = some a ↔ (i, a) ∈ arena.entries := by
  have hnodup := (List.nodup_append.1 arena.nodup).1
  unfold get?
  revert hnodup
  induction arena.entries with
  | nil => simp
  | cons entry rest ih =>
    obtain ⟨j, b⟩ := entry
    intro hnodup
    simp only [List.map_cons, List.nodup_cons, List.mem_map, not_exists, not_and] at hnodup
    by_cases h : i = j
    · subst h
      simp only [List.lookup_cons_self, Option.some.injEq, List.mem_cons, Prod.mk.injEq, true_and]
      constructor
      · rintro rfl
        exact .inl rfl
      · rintro (rfl | hmem)
        · rfl
        · exact (hnodup.1 _ hmem rfl).elim
    · have hij : (i == j) = false := by simpa using h
      simp [List.lookup_cons, hij, h, ih hnodup.2]

theorem mem_indices_iff {arena : Arena α} {i : Nat} :
    i ∈ arena.indices ↔ ∃ a, arena.get? i = some a := by
  simp [indices, get?_eq_some_iff]

theorem get?_eq_none_iff {arena : Arena α} {i : Nat} :
    arena.get? i = none ↔ i ∉ arena.indices := by
  rw [mem_indices_iff]
  cases arena.get? i <;> simp

theorem next_not_mem_indices (arena : Arena α) : arena.next ∉ arena.indices := by
  obtain ⟨entries, released, bound, nodup, lt_bound⟩ := arena
  cases released with
  | nil =>
    intro h
    exact Nat.lt_irrefl _ (lt_bound _ (List.mem_append_left _ h))
  | cons i released =>
    intro h
    exact (List.nodup_append.1 nodup).2.2 i h i List.mem_cons_self rfl

/-- No item lives under the index that the next item gets. -/
@[simp] theorem get?_next (arena : Arena α) : arena.get? arena.next = none :=
  get?_eq_none_iff.2 arena.next_not_mem_indices

@[simp] theorem get?_empty (i : Nat) : (empty : Arena α).get? i = none := rfl

@[simp] theorem entries_insert (arena : Arena α) (a : α) :
    (arena.insert a).entries = (arena.next, a) :: arena.entries := by
  obtain ⟨entries, released, bound, nodup, lt_bound⟩ := arena
  cases released <;> rfl

theorem get?_insert (arena : Arena α) (a : α) (i : Nat) :
    (arena.insert a).get? i = if i = arena.next then some a else arena.get? i := by
  by_cases h : i = arena.next
  · simp [get?, h]
  · have : (i == arena.next) = false := by simpa using h
    simp [get?, List.lookup_cons, this, h]

@[simp] theorem size_insert (arena : Arena α) (a : α) :
    (arena.insert a).size = arena.size + 1 := by
  simp [size]

@[simp] theorem entries_erase (arena : Arena α) (i : Nat) :
    (arena.erase i).entries = arena.entries.filter fun entry => entry.1 != i := by
  unfold erase
  split
  · rfl
  · rename_i h
    refine (List.filter_eq_self.2 ?_).symm
    rintro ⟨j, a⟩ hmem
    have : j ≠ i := fun hji => h (hji ▸ List.mem_map_of_mem hmem)
    simpa using this

theorem get?_erase (arena : Arena α) (i j : Nat) :
    (arena.erase j).get? i = if i = j then none else arena.get? i := by
  refine Option.ext fun a => ?_
  rw [get?_eq_some_iff, entries_erase]
  by_cases h : i = j <;> simp [h, get?_eq_some_iff]

/-- Where no item lives, there is none to erase. -/
theorem erase_eq_self {arena : Arena α} {i : Nat} (h : arena.get? i = none) :
    arena.erase i = arena :=
  dif_neg (get?_eq_none_iff.1 h)

/-- The index of an item that is erased is the first to be handed out again. -/
theorem next_erase {arena : Arena α} {i : Nat} (h : i ∈ arena.indices) :
    (arena.erase i).next = i := by
  unfold erase
  rw [dif_pos (show i ∈ arena.entries.map Prod.fst from h)]
  rfl

theorem get?_eraseAll (arena : Arena α) (is : List Nat) (i : Nat) :
    (arena.eraseAll is).get? i = if i ∈ is then none else arena.get? i := by
  induction is generalizing arena with
  | nil => rfl
  | cons j is ih =>
    refine (ih (arena.erase j)).trans ?_
    rw [get?_erase]
    by_cases hi : i ∈ is <;> by_cases hj : i = j <;> simp [hi, hj]

theorem entries_eraseAll (arena : Arena α) (is : List Nat) :
    (arena.eraseAll is).entries = arena.entries.filter fun entry => entry.1 ∉ is := by
  induction is generalizing arena with
  | nil => exact (List.filter_eq_self.2 fun _ _ => decide_eq_true List.not_mem_nil).symm
  | cons i is ih =>
    refine (ih (arena.erase i)).trans ?_
    rw [entries_erase, List.filter_filter]
    refine List.filter_congr fun entry _ => ?_
    by_cases h : entry.1 = i <;> simp [h]

theorem indices_erase (arena : Arena α) (i : Nat) :
    (arena.erase i).indices = arena.indices.erase i := by
  have hnodup : arena.indices.Nodup := (List.nodup_append.1 arena.nodup).1
  rw [hnodup.erase_eq_filter, indices, entries_erase, indices, List.filter_map]
  rfl

theorem size_erase (arena : Arena α) (i : Nat) :
    (arena.erase i).size + (if i ∈ arena.indices then 1 else 0) = arena.size := by
  have hsize : ∀ arena : Arena α, arena.size = arena.indices.length :=
    fun _ => (List.length_map _).symm
  rw [hsize, hsize, indices_erase, List.length_erase]
  split
  · exact Nat.sub_add_cancel (List.length_pos_of_mem ‹_›)
  · rfl

theorem contains_iff {arena : Arena α} {i : Nat} :
    arena.contains i = true ↔ ∃ a, arena.get? i = some a :=
  Option.isSome_iff_exists

end Arena

end TripPlanner
