import TripPlanner.Feed
import TripPlanner.Proofs.Evolution

/-!
# Places

A feed of places keeps its registry and the network in step: whatever was registered before, after
a complete list of records the registry holds the last record of each of its ids
(`Graph.record?_applyRecords`), every registered id has a vertex of its own that stands for it, and
no other vertex comes or goes (`Graph.Tends.applyRecords`).
-/

namespace TripPlanner

variable {R : Type} {ρ σ : Type} [Place R ρ] [Place R σ]

/-- A kind of place whose registry is its own, and whose vertices tell the id they stand for. -/
class LawfulPlace (R : outParam Type) (ρ : Type) [Place R ρ] : Prop where
  registry?_modifyRegistry : ∀ (f : Registry ρ → Registry ρ) (services : Services R),
    Place.registry? (Place.modifyRegistry f services) =
      some (f ((Place.registry? services).getD .empty))
  vertexKind_injective : Function.Injective (Place.vertexKind (R := R) ρ)
  id_complete : ∀ record : ρ, Place.id (Place.complete record) = Place.id record
  roadworks_modifyRegistry : ∀ (f : Registry ρ → Registry ρ) (services : Services R),
    (Place.modifyRegistry f services).roadworks = services.roadworks

instance : LawfulPlace R (CarPark R) where
  registry?_modifyRegistry _ _ := rfl
  roadworks_modifyRegistry _ _ := rfl
  vertexKind_injective _ _ h := VertexKind.parkAndRide.inj h
  id_complete _ := rfl

instance : LawfulPlace R (Station R) where
  registry?_modifyRegistry f services := by
    change some (f (services.rental.getD .empty).stations) = _
    cases h : services.rental <;> simp [Place.registry?, h, RentalService.empty]
  roadworks_modifyRegistry _ _ := rfl
  vertexKind_injective _ _ h := VertexKind.rentalStation.inj h
  id_complete station := by
    change station.withSomeNetwork.id = station.id
    unfold Station.withSomeNetwork
    split <;> rfl

/-- Two kinds of places that share neither registry nor vertices. -/
structure Place.Apart (R ρ σ : Type) [Place R ρ] [Place R σ] : Prop where
  registry? : ∀ (f : Registry ρ → Registry ρ) (services : Services R),
    Place.registry? (ρ := σ) (Place.modifyRegistry f services) = Place.registry? services
  vertexKind : ∀ id k, Place.vertexKind (R := R) ρ id ≠ Place.vertexKind (R := R) σ k

theorem Place.apart_carPark_station : Place.Apart R (CarPark R) (Station R) :=
  ⟨fun _ _ => rfl, fun _ _ h => nomatch h⟩

theorem Place.apart_station_carPark : Place.Apart R (Station R) (CarPark R) :=
  ⟨fun _ _ => rfl, fun _ _ h => nomatch h⟩

namespace Place

variable {record : ρ} {records : List ρ} {id : String}

/-- The last record of an id in a list. -/
def last? (records : List ρ) (id : String) : Option ρ :=
  records.reverse.find? fun record => Place.id record = id

theorem last?_cons : last? (record :: records) id =
    (last? records id).or (if Place.id record = id then some record else none) := by
  rw [last?, List.reverse_cons, List.find?_append, last?]
  by_cases h : Place.id record = id <;> simp [h]

theorem last?_eq_none_iff : last? records id = none ↔ id ∉ records.map Place.id := by
  rw [last?, List.find?_eq_none]
  simp

theorem exists_complete_iff : (∃ record, (last? records id).map complete = some record) ↔
    id ∈ records.map Place.id := by
  cases hlast : last? records id with
  | none => simpa using last?_eq_none_iff.1 hlast
  | some record => simpa using mt last?_eq_none_iff.2 (by simp [hlast])

end Place

namespace Graph

variable {g next last : Graph R} {id k : String} {v : VertexIndex}
  {vertex : Vertex R} {record : ρ} {records : List ρ}

/-- The vertex is there and stands for an id. -/
def StandsFor (g : Graph R) (ρ : Type) [Place R ρ] (v : VertexIndex) (id : String) : Prop :=
  ∃ vertex, g.vertex? v = some vertex ∧ vertex.kind = Place.vertexKind ρ id

/-- Every registered id has a vertex that stands for it. -/
def Placed (g : Graph R) (ρ : Type) [Place R ρ] : Prop :=
  ∀ {id}, id ∈ (g.registry ρ).ids → ∃ v, (g.registry ρ).vertex? id = some v ∧ g.StandsFor ρ v id

/-- Looking after the places of one kind: each of them has its vertex afterwards, vertices come and
go with them, and all else stays. -/
structure Tends (ρ : Type) [Place R ρ] (g next : Graph R) : Prop where
  placed : next.Placed ρ
  count : next.vertexCount + (g.registry ρ).size = g.vertexCount + (next.registry ρ).size
  vertex? : ∀ {v vertex}, g.vertex? v = some vertex →
    (∀ id, vertex.kind ≠ Place.vertexKind ρ id) → next.vertex? v = some vertex
  registry : ∀ {σ : Type} [Place R σ], Place.Apart R ρ σ → next.registry σ = g.registry σ

theorem StandsFor.eq [LawfulPlace R ρ] (H : g.StandsFor ρ v id) (H' : g.StandsFor ρ v k) :
    id = k := by
  obtain ⟨vertex, hvertex, hkind⟩ := H
  obtain ⟨vertex', hvertex', hkind'⟩ := H'
  cases hvertex.symm.trans hvertex'
  exact LawfulPlace.vertexKind_injective (hkind.symm.trans hkind')

theorem StandsFor.ne (h : Place.Apart R ρ σ) (H : g.StandsFor ρ v id) : ¬ g.StandsFor σ v k := by
  rintro ⟨vertex', hvertex', hkind'⟩
  obtain ⟨vertex, hvertex, hkind⟩ := H
  cases hvertex.symm.trans hvertex'
  exact h.vertexKind id k (hkind.symm.trans hkind')

/-- Places that are registered as before are placed where their vertices are kept. -/
theorem Placed.of_kept (H : g.Placed ρ) (hregistry : next.registry ρ = g.registry ρ)
    (hkept : ∀ {v vertex id}, g.vertex? v = some vertex → vertex.kind = Place.vertexKind ρ id →
      next.vertex? v = some vertex) : next.Placed ρ := by
  intro id hid
  rw [hregistry] at hid ⊢
  obtain ⟨v, hv, vertex, hvertex, hkind⟩ := H hid
  exact ⟨v, hv, vertex, hkept hvertex hkind, hkind⟩

theorem placed_of_empty (h : g.registry ρ = .empty) : g.Placed ρ := by
  intro id hid
  rw [h] at hid
  cases hid

theorem Placed.standsFor (H : g.Placed ρ) (hv : (g.registry ρ).vertex? id = some v) :
    g.StandsFor ρ v id := by
  obtain ⟨w, hw, hstands⟩ := H (Registry.mem_ids_of_vertex? hv)
  cases hv.symm.trans hw
  exact hstands

theorem Placed.isPlaced (H : g.Placed ρ) (hid : id ∈ (g.registry ρ).ids) :
    g.isPlaced ρ id = true := by
  obtain ⟨v, hv, vertex, hvertex, -⟩ := H hid
  rw [Graph.isPlaced, hv]
  exact Arena.contains_iff.2 ⟨vertex, hvertex⟩

theorem Placed.not_mem_ids (H : g.Placed ρ) (h : g.isPlaced ρ id = false) :
    id ∉ (g.registry ρ).ids := by
  intro hid
  rw [H.isPlaced hid] at h
  cases h

theorem mem_ids_of_isPlaced (h : g.isPlaced ρ id = true) : id ∈ (g.registry ρ).ids := by
  obtain ⟨v, hv, -⟩ := (Option.any_eq_true _ _).1 h
  exact Registry.mem_ids_of_vertex? hv

theorem Tends.refl (H : g.Placed ρ) : Tends ρ g g := ⟨H, rfl, fun h _ => h, fun _ => rfl⟩

theorem Tends.trans (H : Tends ρ g next) (H' : Tends ρ next last) : Tends ρ g last where
  placed := H'.placed
  count := by
    have := H.count
    have := H'.count
    omega
  vertex? h hkind := H'.vertex? (H.vertex? h hkind) hkind
  registry h := (H'.registry h).trans (H.registry h)

/-- The places of another kind keep their vertices. -/
theorem Tends.placed_apart (H : Tends ρ g next) (h : Place.Apart R ρ σ) (hplaced : g.Placed σ) :
    next.Placed σ := by
  refine hplaced.of_kept (H.registry h) fun {v vertex id} hvertex hkind => ?_
  exact H.vertex? hvertex fun k hk => h.vertexKind k id (hk.symm.trans hkind)

/-! ## What a unit does -/

theorem vertex?_of_insert (h : next.vertices = g.vertices.insert vertex) : next.vertex? v =
    if v = g.vertices.next then some vertex else g.vertex? v := by
  rw [vertex?, h, Arena.get?_insert]
  rfl

theorem vertex?_of_erase (h : next.vertices = g.vertices.erase v) {w : VertexIndex} :
    next.vertex? w = if w = v then none else g.vertex? w := by
  rw [vertex?, h, Arena.get?_erase]
  rfl

theorem registry_eq [LawfulPlace R ρ] {f : Registry ρ → Registry ρ}
    (h : next.services = Place.modifyRegistry f g.services) :
    next.registry ρ = f (g.registry ρ) := by
  rw [registry, h, LawfulPlace.registry?_modifyRegistry]
  rfl

theorem registry_eq_apart (hapart : Place.Apart R ρ σ) {f : Registry ρ → Registry ρ}
    (h : next.services = Place.modifyRegistry f g.services) :
    next.registry σ = g.registry σ := by
  rw [registry, h, hapart.registry?]
  rfl

variable [Quantity R] [Geodesy R]

omit [Geodesy R] in
theorem foldl_connect_eq (loops : List (EdgeKind R)) :
    (loops.foldl (fun g loop => (g.connect v v loop).2) g).vertices = g.vertices ∧
      (loops.foldl (fun g loop => (g.connect v v loop).2) g).services = g.services :=
  List.foldlRecOn loops _ (motive := fun next : Graph R =>
    next.vertices = g.vertices ∧ next.services = g.services) ⟨rfl, rfl⟩ fun _ H _ _ => H

theorem linkToStreets_eq : (g.linkToStreets v).vertices = g.vertices ∧
    (g.linkToStreets v).services = g.services := by
  unfold linkToStreets
  dsimp only
  split
  · exact ⟨rfl, rfl⟩
  · split <;> exact ⟨rfl, rfl⟩

/-- A record that is settled gets the next free index. -/
theorem settle_eq (g : Graph R) (record : ρ) :
    (g.settle record).vertices = g.vertices.insert ⟨Place.name record,
      Place.position record, Place.vertexKind ρ (Place.id record)⟩ ∧
    (g.settle record).services = Place.modifyRegistry (fun registry : Registry ρ =>
      registry.place (Place.id record) record g.vertices.next) g.services := by
  refine ⟨linkToStreets_eq.1.trans (foldl_connect_eq _).1, ?_⟩
  exact congrArg (Place.modifyRegistry _) (linkToStreets_eq.2.trans (foldl_connect_eq _).2)

variable [LawfulPlace R ρ]

/-- A record that is announced replaces the one before it, or gets a vertex. -/
theorem announce_cases (g : Graph R) (record : ρ) :
    (g.isPlaced ρ (Place.id record) = true ∧ (g.announce record).vertices = g.vertices ∧
      (g.announce record).services = Place.modifyRegistry (fun registry : Registry ρ =>
        registry.put (Place.id record) (Place.complete record)) g.services) ∨
    (g.isPlaced ρ (Place.id record) = false ∧
      (∃ name position, (g.announce record).vertices =
        g.vertices.insert ⟨name, position, Place.vertexKind ρ (Place.id record)⟩) ∧
      (g.announce record).services = Place.modifyRegistry (fun registry : Registry ρ =>
        registry.place (Place.id record) (Place.complete record) g.vertices.next) g.services) := by
  have hid := LawfulPlace.id_complete (R := R) record
  unfold announce
  dsimp only
  rw [hid]
  split
  · exact .inl ⟨‹_›, rfl, rfl⟩
  · obtain ⟨hvertices, hservices⟩ := settle_eq g (Place.complete record)
    rw [hid] at hvertices hservices
    exact .inr ⟨Bool.eq_false_iff.2 ‹_›, ⟨_, _, hvertices⟩, hservices⟩

theorem record?_announce : ((g.announce record).registry ρ).record? id =
    if id = Place.id record then some (Place.complete record) else
      (g.registry ρ).record? id := by
  rcases announce_cases g record with ⟨-, -, h⟩ | ⟨-, -, h⟩
  · rw [registry_eq h, Registry.record?_put]
  · rw [registry_eq h, Registry.record?_place]

/-- What has its vertex keeps it. -/
theorem vertex?_announce (H : g.Placed ρ) (hid : id ∈ (g.registry ρ).ids) :
    ((g.announce record).registry ρ).vertex? id = (g.registry ρ).vertex? id := by
  rcases announce_cases g record with ⟨-, -, h⟩ | ⟨hnew, -, h⟩
  · rw [registry_eq h, Registry.vertex?_put]
  · have hne : id ≠ Place.id record := by
      rintro rfl
      exact H.not_mem_ids hnew hid
    rw [registry_eq h, Registry.vertex?_place, if_neg hne]

/-- No vertex is removed or overwritten. -/
theorem live_announce (hvertex : g.vertex? v = some vertex) :
    (g.announce record).vertex? v = some vertex := by
  rcases announce_cases g record with ⟨-, h, -⟩ | ⟨-, ⟨name, position, h⟩, -⟩
  · rw [Graph.vertex?, h]
    exact hvertex
  · rw [vertex?_of_insert h, if_neg (ne_next_of_vertex? hvertex), hvertex]

theorem size_announce (H : g.Placed ρ) (record : ρ) :
    (g.announce record).vertexCount + (g.registry ρ).size =
      g.vertexCount + ((g.announce record).registry ρ).size := by
  rcases announce_cases g record with ⟨hknown, hvertices, hservices⟩ |
      ⟨hnew, ⟨name, position, hvertices⟩, hservices⟩
  · rw [registry_eq hservices, Registry.size_put, if_pos (mem_ids_of_isPlaced hknown),
      vertexCount, hvertices]
    rfl
  · rw [registry_eq hservices, Registry.size_place, if_neg (H.not_mem_ids hnew), vertexCount,
      hvertices, Arena.size_insert, vertexCount, Nat.add_right_comm, Nat.add_assoc]

theorem Placed.announce (H : g.Placed ρ) (record : ρ) : (g.announce record).Placed ρ := by
  intro id hid
  rcases announce_cases g record with ⟨hknown, -, h⟩ | ⟨-, ⟨name, position, hvertices⟩, h⟩
  · rw [registry_eq h, Registry.mem_ids_put] at hid
    rw [registry_eq h, Registry.vertex?_put]
    have hold : id ∈ (g.registry ρ).ids := hid.elim (· ▸ mem_ids_of_isPlaced hknown) (·)
    obtain ⟨v, hv, vertex, hvertex, hkind⟩ := H hold
    exact ⟨v, hv, vertex, live_announce hvertex, hkind⟩
  · rw [registry_eq h, Registry.mem_ids_place] at hid
    rw [registry_eq h, Registry.vertex?_place]
    by_cases hnew : id = Place.id record
    · subst hnew
      exact ⟨_, if_pos rfl, _, (vertex?_of_insert hvertices).trans (if_pos rfl), rfl⟩
    · obtain ⟨v, hv, vertex, hvertex, hkind⟩ := H (hid.resolve_left hnew)
      exact ⟨v, (if_neg hnew).trans hv, vertex, live_announce hvertex, hkind⟩

theorem Tends.announce (H : g.Placed ρ) (record : ρ) : Tends ρ g (g.announce record) where
  placed := H.announce record
  count := size_announce H record
  vertex? h _ := live_announce h
  registry h := by
    rcases announce_cases g record with ⟨-, -, hservices⟩ | ⟨-, -, hservices⟩ <;>
      exact registry_eq_apart h hservices

omit [Geodesy R] [LawfulPlace R ρ] in
theorem withdraw_eq (g : Graph R) (ρ : Type) [Place R ρ] (id : String) :
    (g.withdraw ρ id).vertices = (((g.registry ρ).vertex? id).elim g.vertices g.vertices.erase) ∧
    (g.withdraw ρ id).services =
      Place.modifyRegistry (fun registry : Registry ρ => registry.erase id) g.services := by
  unfold withdraw
  dsimp only
  cases (g.registry ρ).vertex? id <;> exact ⟨rfl, rfl⟩

omit [Geodesy R] [LawfulPlace R ρ] in
/-- Only a vertex that stands for the id is removed. -/
theorem live_withdraw (H : g.Placed ρ) (hvertex : g.vertex? v = some vertex)
    (h : vertex.kind ≠ Place.vertexKind ρ id) : (g.withdraw ρ id).vertex? v = some vertex := by
  have hvertices := (withdraw_eq g ρ id).1
  by_cases hmem : id ∈ (g.registry ρ).ids
  · obtain ⟨w, hw, vertex', hvertex', hkind⟩ := H hmem
    rw [hw, Option.elim_some] at hvertices
    rw [vertex?_of_erase hvertices, if_neg, hvertex]
    rintro rfl
    cases hvertex.symm.trans hvertex'
    exact h hkind
  · rw [Registry.vertex?_eq_none hmem, Option.elim_none] at hvertices
    rw [Graph.vertex?, hvertices]
    exact hvertex

omit [Geodesy R] in
theorem size_withdraw (H : g.Placed ρ) (id : String) :
    (g.withdraw ρ id).vertexCount + (g.registry ρ).size =
      g.vertexCount + ((g.withdraw ρ id).registry ρ).size := by
  obtain ⟨hvertices, hservices⟩ := withdraw_eq g ρ id
  have hsize := (g.registry ρ).size_erase id
  rw [registry_eq hservices, vertexCount, hvertices, vertexCount]
  by_cases hmem : id ∈ (g.registry ρ).ids
  · obtain ⟨v, hv, vertex, hvertex, -⟩ := H hmem
    have hcount := Arena.size_erase g.vertices v
    rw [if_pos hmem] at hsize
    rw [if_pos (Arena.mem_indices_iff.2 ⟨vertex, hvertex⟩)] at hcount
    rw [hv, Option.elim_some]
    omega
  · rw [if_neg hmem, Nat.add_zero] at hsize
    rw [Registry.vertex?_eq_none hmem, Option.elim_none, hsize]

omit [Geodesy R] in
theorem Placed.withdraw (H : g.Placed ρ) (id : String) : (g.withdraw ρ id).Placed ρ := by
  obtain ⟨-, hservices⟩ := withdraw_eq g ρ id
  intro k hk
  rw [registry_eq hservices, Registry.mem_ids_erase] at hk
  rw [registry_eq hservices, Registry.vertex?_erase, if_neg hk.1]
  -- The vertex of another id stands for that one, so it is not the one removed.
  obtain ⟨v, hv, vertex, hvertex, hkind⟩ := H hk.2
  refine ⟨v, hv, vertex, live_withdraw H hvertex fun h => hk.1 ?_, hkind⟩
  exact LawfulPlace.vertexKind_injective (hkind.symm.trans h)

omit [Geodesy R] in
theorem Tends.withdraw (H : g.Placed ρ) (id : String) : Tends ρ g (g.withdraw ρ id) where
  placed := H.withdraw id
  count := size_withdraw H id
  vertex? h hkind := live_withdraw H h (hkind id)
  registry h := registry_eq_apart h (withdraw_eq g ρ id).2

/-! ## A complete list -/

theorem record?_foldl_announce : ((records.foldl Graph.announce g).registry ρ).record? id =
    ((Place.last? records id).map Place.complete).or ((g.registry ρ).record? id) := by
  induction records generalizing g with
  | nil => rfl
  | cons record records ih =>
    rw [List.foldl_cons, ih, record?_announce, Place.last?_cons]
    cases Place.last? records id with
    | some found => rfl
    | none => by_cases h : id = Place.id record <;> simp [h, eq_comm]

theorem Tends.foldl_announce (H : g.Placed ρ) (records : List ρ) :
    Tends ρ g (records.foldl Graph.announce g) := by
  induction records generalizing g with
  | nil => exact .refl H
  | cons record records ih =>
    have hnext := Tends.announce H record
    exact hnext.trans (ih hnext.placed)

theorem vertex?_foldl_announce (H : g.Placed ρ) (hid : id ∈ (g.registry ρ).ids) :
    ((records.foldl Graph.announce g).registry ρ).vertex? id = (g.registry ρ).vertex? id := by
  induction records generalizing g with
  | nil => rfl
  | cons record records ih =>
    have hnext : id ∈ ((g.announce record).registry ρ).ids := by
      rw [Registry.mem_ids_iff, record?_announce]
      obtain ⟨old, hold⟩ := Registry.mem_ids_iff.1 hid
      split
      · exact ⟨_, rfl⟩
      · exact ⟨old, hold⟩
    exact (ih (Tends.announce H record).placed hnext).trans (vertex?_announce H hid)

omit [Geodesy R] in
theorem record?_foldl_withdraw {ids : List String} :
    ((ids.foldl (fun g id => g.withdraw ρ id) g).registry ρ).record? id =
      if id ∈ ids then none else (g.registry ρ).record? id := by
  induction ids generalizing g with
  | nil => rfl
  | cons k ids ih =>
    rw [List.foldl_cons, ih, registry_eq (withdraw_eq g ρ k).2, Registry.record?_erase]
    by_cases hmem : id ∈ ids <;> by_cases hk : id = k <;> simp [hmem, hk]

omit [Geodesy R] in
theorem vertex?_foldl_withdraw {ids : List String} (h : id ∉ ids) :
    ((ids.foldl (fun g id => g.withdraw ρ id) g).registry ρ).vertex? id =
      (g.registry ρ).vertex? id := by
  induction ids generalizing g with
  | nil => rfl
  | cons k ids ih =>
    rw [List.mem_cons, not_or] at h
    rw [List.foldl_cons, ih h.2, registry_eq (withdraw_eq g ρ k).2, Registry.vertex?_erase,
      if_neg h.1]

omit [Geodesy R] in
theorem Tends.foldl_withdraw (H : g.Placed ρ) (ids : List String) :
    Tends ρ g (ids.foldl (fun g id => g.withdraw ρ id) g) := by
  induction ids generalizing g with
  | nil => exact .refl H
  | cons id ids ih =>
    have hnext := Tends.withdraw H id
    exact hnext.trans (ih hnext.placed)

omit [Quantity R] [Geodesy R] [LawfulPlace R ρ] in
theorem mem_staleIds_iff : id ∈ g.staleIds records ↔
    id ∈ (g.registry ρ).ids ∧ id ∉ records.map Place.id := by
  simp [staleIds]

/-- What was registered before does not matter: the registry is that of the list. -/
theorem record?_applyRecords : ((g.applyRecords records).registry ρ).record? id =
    (Place.last? records id).map Place.complete := by
  rw [applyRecords, record?_foldl_announce, record?_foldl_withdraw]
  cases hlast : Place.last? records id with
  | some record => rfl
  | none =>
    have hnot : id ∉ records.map Place.id := Place.last?_eq_none_iff.1 hlast
    split
    · rfl
    · rename_i hstale
      refine Registry.record?_eq_none_iff.2 fun hmem => hstale ?_
      exact mem_staleIds_iff.2 ⟨hmem, hnot⟩

theorem Tends.applyRecords (H : g.Placed ρ) (records : List ρ) :
    Tends ρ g (g.applyRecords records) := by
  have hwithdrawn := Tends.foldl_withdraw H (g.staleIds records)
  exact hwithdrawn.trans (.foldl_announce hwithdrawn.placed records)

/-- An id that stays keeps its vertex. -/
theorem vertex?_applyRecords (H : g.Placed ρ) (hid : id ∈ (g.registry ρ).ids)
    (hmem : id ∈ records.map Place.id) :
    ((g.applyRecords records).registry ρ).vertex? id = (g.registry ρ).vertex? id := by
  have hstale : id ∉ g.staleIds records := fun h => (mem_staleIds_iff.1 h).2 hmem
  have hkept : id ∈ (((g.staleIds records).foldl (fun g id => g.withdraw ρ id) g).registry
      ρ).ids := by
    rw [Registry.mem_ids_iff, record?_foldl_withdraw, if_neg hstale]
    exact Registry.mem_ids_iff.1 hid
  exact (vertex?_foldl_announce (Tends.foldl_withdraw H _).placed hkept).trans
    (vertex?_foldl_withdraw hstale)

end Graph

end TripPlanner
