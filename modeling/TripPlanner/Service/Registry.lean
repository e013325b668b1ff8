import TripPlanner.Table
import TripPlanner.Network.Vertex

/-!
# Registries

What a feed has announced, by id: the latest record and the vertex that was created for it.
-/

namespace TripPlanner

/-- A record with the vertex that stands for it in the network. -/
structure Listing (ρ : Type) where
  /-- The latest record. -/
  record : ρ
  /-- The vertex created for it, if one was. -/
  vertex : Option VertexIndex
  deriving DecidableEq

/-- Records of one kind by id. -/
structure Registry (ρ : Type) where
  /-- The listings, in the order in which their ids were first announced. -/
  listings : Table String (Listing ρ)

namespace Registry

variable {ρ : Type}

/-- The registry without records. -/
def empty : Registry ρ := ⟨∅⟩

instance : Inhabited (Registry ρ) := ⟨empty⟩

/-- The record of an id. -/
def record? (registry : Registry ρ) (id : String) : Option ρ :=
  (registry.listings.get? id).map Listing.record

/-- The vertex created for an id. -/
def vertex? (registry : Registry ρ) (id : String) : Option VertexIndex :=
  (registry.listings.get? id).bind Listing.vertex

/-- The registered ids. -/
def ids (registry : Registry ρ) : List String := registry.listings.keys

/-- The registered records. -/
def records (registry : Registry ρ) : List ρ := registry.listings.values.map Listing.record

/-- The number of registered ids. -/
def size (registry : Registry ρ) : Nat := registry.listings.size

/-- Whether nothing is registered. -/
def isEmpty (registry : Registry ρ) : Bool := registry.listings.isEmpty

/-- Adds or replaces the record of an id and leaves its vertex as it is. -/
def put (registry : Registry ρ) (id : String) (record : ρ) : Registry ρ :=
  ⟨registry.listings.insert id ⟨record, registry.vertex? id⟩⟩

/-- Adds or replaces the record of an id together with the vertex created for it. -/
def place (registry : Registry ρ) (id : String) (record : ρ) (v : VertexIndex) : Registry ρ :=
  ⟨registry.listings.insert id ⟨record, some v⟩⟩

/-- Forgets an id. -/
def erase (registry : Registry ρ) (id : String) : Registry ρ := ⟨registry.listings.erase id⟩

/-! ## Look-up -/

variable {registry : Registry ρ} {id k : String} {record : ρ} {v : VertexIndex}

theorem mem_ids_iff : id ∈ registry.ids ↔ ∃ record, registry.record? id = some record := by
  rw [ids, Table.mem_keys_iff, record?]
  cases registry.listings.get? id <;> simp

theorem record?_eq_none_iff : registry.record? id = none ↔ id ∉ registry.ids := by
  rw [mem_ids_iff]
  cases registry.record? id <;> simp

theorem mem_ids_of_vertex? (h : registry.vertex? id = some v) : id ∈ registry.ids := by
  cases hlisting : registry.listings.get? id with
  | none =>
    rw [vertex?, hlisting] at h
    cases h
  | some listing => exact Table.mem_keys_iff.2 ⟨listing, hlisting⟩

theorem vertex?_eq_none (h : id ∉ registry.ids) : registry.vertex? id = none :=
  Option.eq_none_iff_forall_ne_some.2 fun _ hv => h (mem_ids_of_vertex? hv)

theorem record?_put : (registry.put id record).record? k =
    if k = id then some record else registry.record? k := by
  unfold record? put
  rw [Table.get?_insert]
  split <;> rfl

theorem record?_place : (registry.place id record v).record? k =
    if k = id then some record else registry.record? k := by
  unfold record? place
  rw [Table.get?_insert]
  split <;> rfl

theorem record?_erase : (registry.erase id).record? k =
    if k = id then none else registry.record? k := by
  unfold record? erase
  rw [Table.get?_erase]
  split <;> rfl

theorem vertex?_put : (registry.put id record).vertex? k = registry.vertex? k := by
  by_cases h : k = id
  · subst h
    simp [put, vertex?, Table.get?_insert]
  · simp [put, vertex?, Table.get?_insert, h]

theorem vertex?_place : (registry.place id record v).vertex? k =
    if k = id then some v else registry.vertex? k := by
  unfold vertex? place
  rw [Table.get?_insert]
  split <;> rfl

theorem vertex?_erase : (registry.erase id).vertex? k =
    if k = id then none else registry.vertex? k := by
  unfold vertex? erase
  rw [Table.get?_erase]
  split <;> rfl

theorem mem_ids_put : k ∈ (registry.put id record).ids ↔ k = id ∨ k ∈ registry.ids := by
  simp only [mem_ids_iff, record?_put]
  by_cases h : k = id <;> simp [h]

theorem mem_ids_place : k ∈ (registry.place id record v).ids ↔ k = id ∨ k ∈ registry.ids := by
  simp only [mem_ids_iff, record?_place]
  by_cases h : k = id <;> simp [h]

theorem mem_ids_erase : k ∈ (registry.erase id).ids ↔ k ≠ id ∧ k ∈ registry.ids := by
  simp only [mem_ids_iff, record?_erase]
  by_cases h : k = id <;> simp [h]

theorem size_put : (registry.put id record).size =
    registry.size + if id ∈ registry.ids then 0 else 1 :=
  Table.size_insert ..

theorem size_place : (registry.place id record v).size =
    registry.size + if id ∈ registry.ids then 0 else 1 :=
  Table.size_insert ..

theorem size_erase (registry : Registry ρ) (id : String) :
    (registry.erase id).size + (if id ∈ registry.ids then 1 else 0) = registry.size :=
  Table.size_erase ..

end Registry

end TripPlanner
