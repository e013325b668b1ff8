import TripPlanner.Proofs.Turns

/-!
# Repetition

Bringing the network in line with a list of places twice is the same as once, even where ids occur
several times in the list and whatever was there before (`Graph.applyRecords_applyRecords`). The
second time no registered id is missing from the list and every id has its vertex, so that records
are put where they are already: the last one of each id stays, and the order of ids does too.
-/

namespace TripPlanner

variable {R ρ : Type} [Place R ρ] {records : List ρ} {record : ρ} {id : String}

/-- A kind of place whose registry can be changed in several steps or in one, and is kept where it
is not changed. -/
class SteadyPlace (R : outParam Type) (ρ : Type) [Place R ρ] : Prop extends LawfulPlace R ρ where
  modifyRegistry_modifyRegistry : ∀ (f f' : Registry ρ → Registry ρ) (services : Services R),
    Place.modifyRegistry f (Place.modifyRegistry f' services) =
      Place.modifyRegistry (fun registry => f (f' registry)) services
  modifyRegistry_eq_self : ∀ {f : Registry ρ → Registry ρ} {services : Services R}
    {registry : Registry ρ}, Place.registry? services = some registry → f registry = registry →
      Place.modifyRegistry f services = services

instance : SteadyPlace R (CarPark R) where
  modifyRegistry_modifyRegistry _ _ _ := rfl
  modifyRegistry_eq_self {f services registry} h hf := by
    obtain ⟨roadworks, carParks, rental⟩ := services
    obtain rfl : carParks = some registry := h
    change Services.mk roadworks (some (f registry)) rental = _
    rw [hf]

instance : SteadyPlace R (Station R) where
  modifyRegistry_modifyRegistry _ _ _ := rfl
  modifyRegistry_eq_self {f services registry} h hf := by
    obtain ⟨roadworks, carParks, rental⟩ := services
    obtain ⟨service, hservice, rfl⟩ := Option.map_eq_some_iff.1 h
    obtain rfl : rental = some service := hservice
    change Services.mk roadworks carParks (some ⟨f service.stations, service.networkTypes⟩) = _
    rw [hf]

/-! ## Records that are registered already -/

namespace Registry

variable {registry other : Registry ρ}

omit [Place R ρ] in
theorem ids_put (h : id ∈ registry.ids) : (registry.put id record).ids = registry.ids :=
  (Table.keys_insert ..).trans (if_pos h)

omit [Place R ρ] in
/-- Two registries are equal if they hold the same ids in the same order, and the same for each. -/
theorem ext_record? (hids : registry.ids = other.ids)
    (hrecord : ∀ id, registry.record? id = other.record? id)
    (hvertex : ∀ id, registry.vertex? id = other.vertex? id) : registry = other := by
  obtain ⟨listings⟩ := registry
  obtain ⟨listings'⟩ := other
  refine congrArg Registry.mk (Table.ext_get? hids fun id => ?_)
  have hrecord := hrecord id
  have hvertex := hvertex id
  simp only [record?, vertex?] at hrecord hvertex
  cases hget : listings.get? id with
  | none =>
    rw [hget, Option.map_none, eq_comm, Option.map_eq_none_iff] at hrecord
    exact hrecord.symm
  | some listing =>
    rw [hget, Option.map_some, eq_comm, Option.map_eq_some_iff] at hrecord
    obtain ⟨listing', hget', hrecord⟩ := hrecord
    rw [hget, hget', Option.bind_some, Option.bind_some] at hvertex
    obtain ⟨record, v⟩ := listing
    obtain ⟨record', v'⟩ := listing'
    cases hrecord
    cases hvertex
    exact hget'.symm

/-- The registry after records have been put in one after the other. -/
def refresh (registry : Registry ρ) (records : List ρ) : Registry ρ :=
  records.foldl (fun registry record => registry.put (Place.id record) (Place.complete record))
    registry

theorem vertex?_refresh : (registry.refresh records).vertex? id = registry.vertex? id := by
  unfold refresh
  induction records generalizing registry with
  | nil => rfl
  | cons record records ih => exact ih.trans vertex?_put

theorem record?_refresh : (registry.refresh records).record? id =
    ((Place.last? records id).map Place.complete).or (registry.record? id) := by
  unfold refresh
  induction records generalizing registry with
  | nil => rfl
  | cons record records ih =>
    rw [List.foldl_cons, ih, record?_put, Place.last?_cons]
    cases Place.last? records id with
    | some found => rfl
    | none => by_cases h : id = Place.id record <;> simp [h, eq_comm]

theorem ids_refresh (h : ∀ record ∈ records, Place.id record ∈ registry.ids) :
    (registry.refresh records).ids = registry.ids := by
  unfold refresh
  induction records generalizing registry with
  | nil => rfl
  | cons record records ih =>
    have hids : (registry.put (Place.id record) (Place.complete record)).ids = registry.ids :=
      ids_put (h record List.mem_cons_self)
    refine (ih fun later hmem => ?_).trans hids
    rw [hids]
    exact h later (List.mem_cons_of_mem _ hmem)

/-- What a list has put in it does not put in otherwise. -/
theorem refresh_eq_self
    (h : ∀ id, registry.record? id = (Place.last? records id).map Place.complete) :
    registry.refresh records = registry := by
  refine ext_record? (ids_refresh fun record hmem => ?_) (fun id => ?_) fun _ => vertex?_refresh
  · rw [mem_ids_iff, h, Place.exists_complete_iff]
    exact List.mem_map_of_mem hmem
  · rw [record?_refresh, h, Option.or_self]

end Registry

namespace Graph

variable {g : Graph R}

theorem isPlaced_iff : g.isPlaced ρ id = true ↔
    ∃ v vertex, (g.registry ρ).vertex? id = some v ∧ g.vertex? v = some vertex := by
  rw [isPlaced, Option.any_eq_true]
  refine exists_congr fun v => ?_
  rw [Arena.contains_iff, exists_and_left]
  rfl

/-- Where something is registered, the service is there. -/
theorem registry?_eq_some (h : id ∈ (g.registry ρ).ids) :
    Place.registry? g.services = some (g.registry ρ) := by
  unfold registry at h ⊢
  cases hregistry : Place.registry? (ρ := ρ) g.services with
  | none =>
    rw [hregistry] at h
    cases h
  | some registry => rfl

/-- The registry holds the last record of each id of the list, and nothing else, and each id has its
vertex. -/
structure Reflects (g : Graph R) (records : List ρ) : Prop where
  record? : ∀ id, (g.registry ρ).record? id = (Place.last? records id).map Place.complete
  isPlaced : ∀ record ∈ records, g.isPlaced ρ (Place.id record) = true

variable [Quantity R] [Geodesy R]

/-- An id gets its vertex when it is announced, and keeps it when others are. -/
theorem isPlaced_announce [LawfulPlace R ρ]
    (h : id = Place.id record ∨ g.isPlaced ρ id = true) :
    (g.announce record).isPlaced ρ id = true := by
  have hkept : ∀ {v vertex}, (g.registry ρ).vertex? id = some v → g.vertex? v = some vertex →
      ((g.announce record).registry ρ).vertex? id = some v →
        (g.announce record).isPlaced ρ id = true :=
    fun _ hvertex hv => isPlaced_iff.2 ⟨_, _, hv, live_announce hvertex⟩
  rcases announce_cases g record with ⟨hknown, -, hservices⟩ |
      ⟨-, ⟨name, position, hvertices⟩, hservices⟩
  · have hplaced : g.isPlaced ρ id = true := h.elim (fun hid => hid ▸ hknown) fun h => h
    obtain ⟨v, vertex, hv, hvertex⟩ := isPlaced_iff.1 hplaced
    exact hkept hv hvertex (by rw [registry_eq hservices, Registry.vertex?_put, hv])
  · by_cases hid : id = Place.id record
    · refine isPlaced_iff.2
        ⟨g.vertices.next, _, ?_, (vertex?_of_insert hvertices).trans (if_pos rfl)⟩
      rw [registry_eq hservices, Registry.vertex?_place, if_pos hid]
    · obtain ⟨v, vertex, hv, hvertex⟩ := isPlaced_iff.1 (h.resolve_left hid)
      exact hkept hv hvertex (by rw [registry_eq hservices, Registry.vertex?_place, if_neg hid, hv])

theorem isPlaced_foldl_announce [LawfulPlace R ρ]
    (h : id ∈ records.map Place.id ∨ g.isPlaced ρ id = true) :
    (records.foldl Graph.announce g).isPlaced ρ id = true := by
  induction records generalizing g with
  | nil => exact h.resolve_left List.not_mem_nil
  | cons record records ih =>
    apply ih
    rcases h with hmem | hplaced
    · rcases List.mem_cons.1 hmem with hid | hmem
      · exact .inr (isPlaced_announce (.inl hid))
      · exact .inl hmem
    · exact .inr (isPlaced_announce (.inr hplaced))

/-- Announcing places that have their vertices is about the registry only. -/
theorem foldl_announce_of_isPlaced [SteadyPlace R ρ] (hne : records ≠ [])
    (h : ∀ record ∈ records, g.isPlaced ρ (Place.id record) = true) :
    records.foldl Graph.announce g = g.modifyServices
      (Place.modifyRegistry fun registry : Registry ρ => registry.refresh records) := by
  induction records generalizing g with
  | nil => exact (hne rfl).elim
  | cons record records ih =>
    have hannounce : g.announce record = g.modifyServices (Place.modifyRegistry
        fun registry : Registry ρ => registry.put (Place.id record) (Place.complete record)) := by
      rw [Graph.announce, LawfulPlace.id_complete]
      exact if_pos (h record List.mem_cons_self)
    rw [List.foldl_cons]
    cases records with
    | nil => exact hannounce
    | cons second records =>
      rw [ih (List.cons_ne_nil _ _) fun later hmem =>
        isPlaced_announce (.inr (h later (List.mem_cons_of_mem _ hmem))), hannounce]
      exact congrArg (fun services => { g with services })
        (SteadyPlace.modifyRegistry_modifyRegistry (ρ := ρ) _ _ g.services)

theorem reflects_applyRecords [LawfulPlace R ρ] (g : Graph R) (records : List ρ) :
    (g.applyRecords records).Reflects records where
  record? _ := record?_applyRecords
  isPlaced _ hmem := isPlaced_foldl_announce (.inl (List.mem_map_of_mem hmem))

theorem Reflects.applyRecords_eq [SteadyPlace R ρ] (H : g.Reflects records) :
    g.applyRecords records = g := by
  have hstale : g.staleIds records = [] := by
    refine List.eq_nil_iff_forall_not_mem.2 fun id hmem => ?_
    obtain ⟨hid, hnot⟩ := mem_staleIds_iff.1 hmem
    obtain ⟨record, hrecord⟩ := Registry.mem_ids_iff.1 hid
    exact hnot (Place.exists_complete_iff.1 ⟨record, (H.record? id).symm.trans hrecord⟩)
  rw [applyRecords, hstale, List.foldl_nil]
  cases records with
  | nil => rfl
  | cons record records =>
    rw [foldl_announce_of_isPlaced (List.cons_ne_nil _ _) H.isPlaced]
    have hid := mem_ids_of_isPlaced (H.isPlaced record List.mem_cons_self)
    have hservices : Place.modifyRegistry (fun registry : Registry ρ =>
        registry.refresh (record :: records)) g.services = g.services :=
      SteadyPlace.modifyRegistry_eq_self (registry?_eq_some hid)
        (Registry.refresh_eq_self H.record?)
    rw [modifyServices, hservices]

/-- A list that is brought in again changes nothing. -/
theorem applyRecords_applyRecords [SteadyPlace R ρ] (g : Graph R) (records : List ρ) :
    (g.applyRecords records).applyRecords records = g.applyRecords records :=
  (reflects_applyRecords g records).applyRecords_eq

omit [Geodesy R] in
/-- Neither do closures: what they close does not depend on what is closed. -/
theorem applyRoadworks_applyRoadworks (g : Graph R) (ways : List Int) (areas : List (Area R)) :
    (g.applyRoadworks ways areas).applyRoadworks ways areas = g.applyRoadworks ways areas := rfl

end Graph

end TripPlanner
