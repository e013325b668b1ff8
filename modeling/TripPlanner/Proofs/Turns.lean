import TripPlanner.Manager
import TripPlanner.Proofs.Places

/-!
# Turns of feeds

What feeds have the writer do (`Turn`): they set up their service, bring in data, and take back what
they have added. A turn minds its own places (`Graph.MindsOwn`): it removes no vertex but those its
kind has registered, it registers none that was there before and not registered, and what goes from
the registry goes from the network (`Turn.unit_cases`). This holds of every graph, whatever has
become of the registered vertices.
-/

namespace TripPlanner

/-! ## Turns -/

/-- The kind of feed that brings the data in. -/
def FeedData.kind {R : Type} : FeedData R → FeedKind
  | .carParks _ => .carPark
  | .stations _ => .bikeRental
  | .roadworks .. => .roadworks

/-- What a feed has the writer do. -/
inductive Turn (R : Type) where
  | setUp (updater : Updater)
  | poll (updater : Updater) (data : FeedData R)
  | tearDown (updater : Updater)

namespace Turn

variable {R : Type}

/-- The feed whose turn it is. -/
def updater : Turn R → Updater
  | .setUp updater => updater
  | .poll updater _ => updater
  | .tearDown updater => updater

/-- The kind of feed that the unit is about. -/
def kind : Turn R → FeedKind
  | .setUp updater => updater.kind
  | .poll _ data => data.kind
  | .tearDown updater => updater.kind

def unit [Quantity R] [Geodesy R] : Turn R → Graph R → Graph R
  | .setUp updater => updater.setUp
  | .poll _ data => data.apply
  | .tearDown updater => updater.tearDown

end Turn

namespace Graph

variable {R : Type} {g : Graph R} {units : List (Graph R → Graph R)} {unit : Graph R → Graph R}

/-- The graph after the writer has applied some units. -/
def written (g : Graph R) (units : List (Graph R → Graph R)) : Graph R :=
  ((Batch.start g).carryOut (units.map fun unit => .run unit none) : Batch R Unit).graph

theorem carryOut_graph (batch : Batch R Unit) (units : List (Graph R → Graph R)) :
    (batch.carryOut (units.map fun unit => .run unit none)).graph =
      units.foldl (fun g unit => (unit g).bumpVersion) batch.graph := by
  induction units generalizing batch with
  | nil => rfl
  | cons unit units ih => exact ih _

@[simp] theorem written_nil : g.written [] = g := rfl

theorem written_append (units later : List (Graph R → Graph R)) :
    g.written (units ++ later) = (g.written units).written later := by
  unfold written
  simp only [carryOut_graph, List.foldl_append, Batch.start]

theorem written_cons : g.written (unit :: units) = (unit g).bumpVersion.written units :=
  written_append [unit] units

theorem written_concat : g.written (units ++ [unit]) = (unit (g.written units)).bumpVersion :=
  written_append units [unit]

section
variable [Quantity R] [Geodesy R] {turn : Turn R} {turns : List (Turn R)}

/-- The graph after some turns of feeds. -/
def fed (g : Graph R) (turns : List (Turn R)) : Graph R := g.written (turns.map Turn.unit)

@[simp] theorem fed_nil : g.fed [] = g := rfl

theorem fed_concat : g.fed (turns ++ [turn]) = (turn.unit (g.fed turns)).bumpVersion := by
  rw [fed, List.map_append, List.map_singleton, written_concat]
  rfl

theorem fed_append (later : List (Turn R)) : g.fed (turns ++ later) = (g.fed turns).fed later := by
  rw [fed, List.map_append, written_append]
  rfl

end

end Graph

/-! ## Places apart from the streets -/

/-- An edge that is no street, and that no bounds depend on. -/
def EdgeKind.IsAside {R : Type} [Quantity R] (kind : EdgeKind R) : Prop :=
  kind.street? = none ∧ ∀ bounds : EdgeBounds R, bounds.extend kind = bounds

theorem EdgeKind.isAside_link {R : Type} [Quantity R] (length : R) :
    (EdgeKind.link length).IsAside := ⟨rfl, fun _ => rfl⟩

/-- A kind of place whose service can be dropped, and which is no part of the streets. -/
class AsidePlace (R : outParam Type) (ρ : Type) [Quantity R] [Place R ρ] : Prop
    extends LawfulPlace R ρ where
  registry?_dropService : ∀ services : Services R,
    Place.registry? (ρ := ρ) (Place.dropService ρ services) = none
  roadworks_dropService : ∀ services : Services R,
    (Place.dropService ρ services).roadworks = services.roadworks
  isStreet : ∀ (name : String) (position : Point R) (id : String),
    (⟨name, position, Place.vertexKind ρ id⟩ : Vertex R).isStreet = false
  loops : ∀ loop ∈ Place.loops (ρ := ρ), loop.IsAside

instance {R : Type} [Quantity R] : AsidePlace R (CarPark R) where
  registry?_dropService _ := rfl
  roadworks_dropService _ := rfl
  isStreet _ _ _ := rfl
  loops loop h := by
    cases List.mem_singleton.1 h
    exact ⟨rfl, fun _ => rfl⟩

instance {R : Type} [Quantity R] : AsidePlace R (Station R) where
  registry?_dropService _ := rfl
  roadworks_dropService _ := rfl
  isStreet _ _ _ := rfl
  loops loop h := by
    rcases List.mem_pair.1 h with rfl | rfl <;> exact ⟨rfl, fun _ => rfl⟩

/-- Two kinds of places that share neither registry nor vertices, nor the service to drop. -/
structure Place.Separate (R ρ σ : Type) [Place R ρ] [Place R σ] : Prop
    extends Place.Apart R ρ σ where
  dropService : ∀ services : Services R,
    Place.registry? (ρ := σ) (Place.dropService ρ services) = Place.registry? services

theorem Place.separate_carPark_station {R : Type} : Place.Separate R (CarPark R) (Station R) :=
  ⟨apart_carPark_station, fun _ => rfl⟩

theorem Place.separate_station_carPark {R : Type} : Place.Separate R (Station R) (CarPark R) :=
  ⟨apart_station_carPark, fun _ => rfl⟩

namespace Graph

variable {R ρ σ : Type} [Place R ρ] [Place R σ] {g next last : Graph R} {id : String}
  {v w : VertexIndex} {vertex : Vertex R} {record : ρ}

/-- The vertex is registered with the places of one kind. -/
def IsRegistered (g : Graph R) (ρ : Type) [Place R ρ] (v : VertexIndex) : Prop :=
  ∃ id, (g.registry ρ).vertex? id = some v

/-- Nothing but what the places of one kind have registered is removed, nothing but what is added
gets registered with them, and what is there afterwards is registered, or was there and not
registered before. -/
structure MindsOwn (ρ : Type) [Place R ρ] (g next : Graph R) : Prop where
  kept : ∀ {v vertex}, g.vertex? v = some vertex → ¬ g.IsRegistered ρ v →
    next.vertex? v = some vertex
  live : ∀ {v vertex}, next.vertex? v = some vertex → next.IsRegistered ρ v ∨
    g.vertex? v = some vertex ∧ ¬ g.IsRegistered ρ v
  registers : ∀ {v}, next.IsRegistered ρ v → g.IsRegistered ρ v ∨ g.vertex? v = none

/-- Looking after the places of one kind, the places of another kind left alone. -/
structure LooksAfter (ρ σ : Type) [Place R ρ] [Place R σ] (g next : Graph R) : Prop where
  mindsOwn : MindsOwn ρ g next
  placed : g.Placed ρ → next.Placed ρ
  registry : next.registry σ = g.registry σ

theorem IsRegistered.congr (h : next.registry ρ = g.registry ρ) :
    next.IsRegistered ρ v ↔ g.IsRegistered ρ v := by
  rw [IsRegistered, IsRegistered, h]

theorem not_isRegistered_of_empty (h : g.registry ρ = .empty) : ¬ g.IsRegistered ρ v := by
  rintro ⟨id, hid⟩
  rw [h] at hid
  cases hid

theorem MindsOwn.refl : MindsOwn ρ g g where
  kept h _ := h
  live {v _} h := (Classical.em (g.IsRegistered ρ v)).imp_right fun hnot => ⟨h, hnot⟩
  registers h := .inl h

theorem MindsOwn.not_isRegistered (H : MindsOwn ρ g next) (h : g.vertex? v = some vertex)
    (hnot : ¬ g.IsRegistered ρ v) : ¬ next.IsRegistered ρ v := by
  intro hnext
  rcases H.registers hnext with hg | hgone
  · exact hnot hg
  · cases hgone.symm.trans h

theorem vertex?_eq_none_of_kept
    (hkept : ∀ vertex, g.vertex? v = some vertex → next.vertex? v = some vertex)
    (h : next.vertex? v = none) : g.vertex? v = none :=
  Option.eq_none_iff_forall_ne_some.2 fun vertex hv => nomatch h.symm.trans (hkept vertex hv)

/-- What is registered or free afterwards was so before. -/
theorem MindsOwn.disposes (H : MindsOwn ρ g next)
    (h : next.IsRegistered ρ v ∨ next.vertex? v = none) :
    g.IsRegistered ρ v ∨ g.vertex? v = none := by
  rcases h with hregistered | hfree
  · exact H.registers hregistered
  · refine Classical.or_iff_not_imp_left.2 fun hnot => ?_
    exact vertex?_eq_none_of_kept (fun _ hv => H.kept hv hnot) hfree

theorem MindsOwn.trans (H : MindsOwn ρ g next) (H' : MindsOwn ρ next last) :
    MindsOwn ρ g last where
  kept h hnot := H'.kept (H.kept h hnot) (H.not_isRegistered h hnot)
  live h := by
    rcases H'.live h with hlast | ⟨hnext, hnot⟩
    · exact .inl hlast
    · exact .inr ((H.live hnext).resolve_left hnot)
  registers h := H.disposes (H'.registers h)

theorem LooksAfter.trans (H : LooksAfter ρ σ g next) (H' : LooksAfter ρ σ next last) :
    LooksAfter ρ σ g last where
  mindsOwn := H.mindsOwn.trans H'.mindsOwn
  placed h := H'.placed (H.placed h)
  registry := H'.registry.trans H.registry

theorem LooksAfter.of_eq (hvertices : next.vertices = g.vertices)
    (hregistry : next.registry ρ = g.registry ρ) (hother : next.registry σ = g.registry σ) :
    LooksAfter ρ σ g next where
  mindsOwn := by
    have hvertex? : ∀ w, next.vertex? w = g.vertex? w := fun w =>
      congrArg (Arena.get? · w) hvertices
    refine ⟨fun h _ => (hvertex? _).trans h, fun {w _} h => ?_, fun h => .inl ?_⟩
    · rw [hvertex?] at h
      rw [IsRegistered.congr hregistry]
      exact (Classical.em (g.IsRegistered ρ w)).imp_right fun hnot => ⟨h, hnot⟩
    · exact (IsRegistered.congr hregistry).1 h
  placed H := H.of_kept hregistry fun {w _ _} h _ =>
    (congrArg (Arena.get? · w) hvertices).trans h
  registry := hother

theorem LooksAfter.bumpVersion (H : LooksAfter ρ σ g next) : LooksAfter ρ σ g next.bumpVersion :=
  H.trans (.of_eq rfl rfl rfl)

theorem mem_registered_iff :
    v ∈ (g.registry ρ).listings.values.filterMap Listing.vertex ↔ g.IsRegistered ρ v := by
  simp only [Table.values, List.mem_filterMap, List.mem_map, IsRegistered, Registry.vertex?,
    Option.bind_eq_some_iff, Table.get?_eq_some_iff, Prod.exists]
  constructor
  · rintro ⟨listing, ⟨id, _, hmem, rfl⟩, hv⟩
    exact ⟨id, _, hmem, hv⟩
  · rintro ⟨id, listing, hmem, hv⟩
    exact ⟨listing, ⟨id, _, hmem, rfl⟩, hv⟩

variable [Quantity R]

theorem vertex?_foldl_removeVertex (vs : List VertexIndex) :
    (vs.foldl (fun g v => (g.removeVertex v).2) g).vertex? w =
      if w ∈ vs then none else g.vertex? w := by
  induction vs generalizing g with
  | nil => rfl
  | cons v vs ih =>
    rw [List.foldl_cons, ih, vertex?_removeVertex]
    by_cases hmem : w ∈ vs <;> by_cases hv : w = v <;> simp [hmem, hv]

theorem services_foldl_removeVertex (vs : List VertexIndex) :
    (vs.foldl (fun g v => (g.removeVertex v).2) g).services = g.services :=
  List.foldlRecOn vs _ (motive := fun next : Graph R => next.services = g.services) rfl
    fun _ H _ _ => H

theorem vertex?_dropRecords : (g.dropRecords ρ).vertex? v = some vertex ↔
    g.vertex? v = some vertex ∧ ¬ g.IsRegistered ρ v := by
  rw [dropRecords, vertex?_foldl_removeVertex, ← mem_registered_iff]
  split
  · simp [*]
  · simp only [*, not_false_eq_true, and_true]
    rfl

theorem registry_dropRecords [AsidePlace R ρ] : (g.dropRecords ρ).registry ρ = .empty := by
  rw [registry, dropRecords, services_foldl_removeVertex]
  exact congrArg (·.getD .empty) (AsidePlace.registry?_dropService (ρ := ρ) g.services)

theorem registry_dropRecords_of_separate (h : Place.Separate R ρ σ) :
    (g.dropRecords ρ).registry σ = g.registry σ := by
  rw [registry, dropRecords, services_foldl_removeVertex]
  exact congrArg (·.getD .empty) (h.dropService g.services)

theorem LooksAfter.dropRecords [AsidePlace R ρ] (h : Place.Separate R ρ σ) (g : Graph R) :
    LooksAfter ρ σ g (g.dropRecords ρ) where
  mindsOwn := by
    refine ⟨fun h hnot => vertex?_dropRecords.2 ⟨h, hnot⟩,
      fun h => .inr (vertex?_dropRecords.1 h), fun h => ?_⟩
    exact (not_isRegistered_of_empty registry_dropRecords h).elim
  placed _ := placed_of_empty registry_dropRecords
  registry := registry_dropRecords_of_separate h

variable [LawfulPlace R ρ]

theorem MindsOwn.withdraw (g : Graph R) (id : String) : MindsOwn ρ g (g.withdraw ρ id) := by
  obtain ⟨hvertices, hservices⟩ := withdraw_eq g ρ id
  have hregistry := registry_eq hservices
  have hvertex? : ∀ {w}, (g.withdraw ρ id).vertex? w =
      if (g.registry ρ).vertex? id = some w then none else g.vertex? w := by
    intro w
    cases hv : (g.registry ρ).vertex? id with
    | none =>
      rw [hv, Option.elim_none] at hvertices
      rw [Graph.vertex?, hvertices, if_neg (by simp)]
      rfl
    | some v =>
      rw [hv, Option.elim_some] at hvertices
      rw [vertex?_of_erase hvertices]
      simp only [Option.some.injEq, eq_comm]
  have hregistered : ∀ {w}, (g.withdraw ρ id).IsRegistered ρ w ↔
      ∃ k, k ≠ id ∧ (g.registry ρ).vertex? k = some w := by
    intro w
    simp only [IsRegistered, hregistry, Registry.vertex?_erase, Option.ite_none_left_eq_some]
  refine ⟨fun h hnot => ?_, fun {w vertex} h => ?_, fun {w} h => ?_⟩
  · rw [hvertex?, if_neg fun hid => hnot ⟨id, hid⟩, h]
  · rw [hvertex?, Option.ite_none_left_eq_some] at h
    rw [hregistered, Classical.or_iff_not_imp_left]
    refine fun hnot => ⟨h.2, ?_⟩
    rintro ⟨k, hk⟩
    exact hnot ⟨k, fun hkid => h.1 (hkid ▸ hk), hk⟩
  · obtain ⟨k, -, hk⟩ := hregistered.1 h
    exact .inl ⟨k, hk⟩

variable [Geodesy R]

theorem MindsOwn.announce (g : Graph R) (record : ρ) : MindsOwn ρ g (g.announce record) := by
  rcases announce_cases g record with ⟨-, hvertices, hservices⟩ |
      ⟨hnew, ⟨name, position, hvertices⟩, hservices⟩
  · have hregistered : ∀ {w}, (g.announce record).IsRegistered ρ w ↔ g.IsRegistered ρ w := by
      intro w
      simp only [IsRegistered, registry_eq hservices, Registry.vertex?_put]
    refine ⟨fun h _ => live_announce h, fun {w vertex} h => ?_, fun h => .inl (hregistered.1 h)⟩
    rw [Graph.vertex?, hvertices] at h
    rw [hregistered]
    exact (Classical.em (g.IsRegistered ρ w)).imp_right fun hnot => ⟨h, hnot⟩
  · have hvertex? : ∀ {k}, ((g.announce record).registry ρ).vertex? k =
        if k = Place.id record then some g.vertices.next else (g.registry ρ).vertex? k := by
      intro k
      rw [registry_eq hservices, Registry.vertex?_place]
    refine ⟨fun h _ => live_announce h, fun {w vertex} h => ?_, ?_⟩
    · rw [vertex?_of_insert hvertices] at h
      split at h
      · exact .inl ⟨Place.id record, by rw [hvertex?, if_pos rfl, ‹w = _›]⟩
      · -- The vertex that the id had before is not there any more, so this one has another id.
        refine Classical.or_iff_not_imp_left.2 fun hnot => ⟨h, ?_⟩
        rintro ⟨k, hk⟩
        refine hnot ⟨k, ?_⟩
        rw [hvertex?, if_neg, hk]
        rintro rfl
        rw [Graph.isPlaced, hk, Option.any_some] at hnew
        exact Bool.false_ne_true (hnew.symm.trans (Arena.contains_iff.2 ⟨vertex, h⟩))
    · rintro w ⟨k, hk⟩
      rw [hvertex?] at hk
      split at hk
      · cases hk
        exact .inr vertex?_next
      · exact .inl ⟨k, hk⟩

theorem registry_announce_of_apart (h : Place.Apart R ρ σ) (record : ρ) :
    (g.announce record).registry σ = g.registry σ := by
  rcases announce_cases g record with ⟨-, -, hservices⟩ | ⟨-, -, hservices⟩ <;>
    exact registry_eq_apart h hservices

theorem LooksAfter.applyRecords (h : Place.Apart R ρ σ) (g : Graph R) (records : List ρ) :
    LooksAfter ρ σ g (g.applyRecords records) := by
  have hstart : ∀ g : Graph R, LooksAfter ρ σ g g := fun g => .of_eq rfl rfl rfl
  refine .trans (List.foldlRecOn (g.staleIds records) _ (hstart g) fun next H id _ => ?_)
    (List.foldlRecOn records _ (hstart _) fun next H record _ => ?_)
  · exact H.trans ⟨.withdraw next id, fun hplaced => hplaced.withdraw id,
      registry_eq_apart h (withdraw_eq next ρ id).2⟩
  · exact H.trans ⟨.announce next record, fun hplaced => hplaced.announce record,
      registry_announce_of_apart h record⟩

end Graph

/-! ## Units by kind -/

namespace Turn

variable {R : Type} {g : Graph R} {updater : Updater}

theorem stations_declareNetworks (services : Services R) (types : List (String × RentalType)) :
    Place.registry? (ρ := Station R) (services.declareNetworks types) =
      some ((Place.registry? (ρ := Station R) services).getD .empty) := by
  have hkept : ∀ service : RentalService R, (types.foldl (fun service declared =>
      service.setNetworkType declared.1 declared.2) service).stations = service.stations :=
    fun service => List.foldlRecOn types _
      (motive := fun next : RentalService R => next.stations = service.stations) rfl
      fun _ H _ _ => H
  change some _ = _
  rw [hkept]
  cases h : services.rental <;> simp [Place.registry?, h, RentalService.empty]

/-- Setting up a service creates it, and registers no place. -/
theorem setUp_eq (updater : Updater) (g : Graph R) :
    (updater.setUp g).vertices = g.vertices ∧
      (updater.setUp g).registry (CarPark R) = g.registry (CarPark R) ∧
      (updater.setUp g).registry (Station R) = g.registry (Station R) := by
  unfold Updater.setUp
  split
  · exact ⟨rfl, rfl, rfl⟩
  · refine ⟨rfl, rfl, ?_⟩
    rw [Graph.registry]
    exact congrArg (·.getD .empty) (stations_declareNetworks g.services _)
  · exact ⟨rfl, rfl, rfl⟩

variable [Quantity R] [Geodesy R]

/-- A turn looks after the places of its kind, or is about no places. -/
theorem unit_cases (turn : Turn R) (g : Graph R) :
    turn.kind = .carPark ∧ Graph.LooksAfter (CarPark R) (Station R) g (turn.unit g) ∨
    turn.kind = .bikeRental ∧ Graph.LooksAfter (Station R) (CarPark R) g (turn.unit g) ∨
    turn.kind = .roadworks ∧ Graph.LooksAfter (CarPark R) (Station R) g (turn.unit g) ∧
      Graph.LooksAfter (Station R) (CarPark R) g (turn.unit g) := by
  match turn with
  | .setUp updater =>
    obtain ⟨hvertices, hparks, hstations⟩ := setUp_eq updater g
    cases h : updater.kind with
    | carPark => exact .inl ⟨h, .of_eq hvertices hparks hstations⟩
    | bikeRental => exact .inr (.inl ⟨h, .of_eq hvertices hstations hparks⟩)
    | roadworks =>
      exact .inr (.inr ⟨h, .of_eq hvertices hparks hstations, .of_eq hvertices hstations hparks⟩)
  | .poll _ (.carParks records) =>
    exact .inl ⟨rfl, .applyRecords Place.apart_carPark_station g records⟩
  | .poll _ (.stations records) =>
    exact .inr (.inl ⟨rfl, .applyRecords Place.apart_station_carPark g records⟩)
  | .poll _ (.roadworks ..) =>
    exact .inr (.inr ⟨rfl, .of_eq rfl rfl rfl, .of_eq rfl rfl rfl⟩)
  | .tearDown ⟨.carPark, _, _, _⟩ =>
    exact .inl ⟨rfl, .dropRecords Place.separate_carPark_station g⟩
  | .tearDown ⟨.bikeRental, _, _, _⟩ =>
    exact .inr (.inl ⟨rfl, .dropRecords Place.separate_station_carPark g⟩)
  | .tearDown ⟨.roadworks, _, _, _⟩ =>
    exact .inr (.inr ⟨rfl, .of_eq rfl rfl rfl, .of_eq rfl rfl rfl⟩)

end Turn

/-- Feeds of one kind look after the places of one kind, and all other feeds after those of another
kind at most. -/
structure FedBy (R ρ σ : Type) [Quantity R] [Geodesy R] [Place R ρ] [Place R σ]
    (kind : FeedKind) : Prop where
  own : ∀ {turn : Turn R}, turn.kind = kind → ∀ g, Graph.LooksAfter ρ σ g (turn.unit g)
  other : ∀ {turn : Turn R}, turn.kind ≠ kind → ∀ g, Graph.LooksAfter σ ρ g (turn.unit g)
  apart : Place.Apart R ρ σ
  apart' : Place.Apart R σ ρ

variable {R : Type} [Quantity R] [Geodesy R]

theorem fedBy_carPark : FedBy R (CarPark R) (Station R) .carPark where
  own {turn} h g := by
    rcases turn.unit_cases g with ⟨-, H⟩ | ⟨hkind, -⟩ | ⟨-, H, -⟩
    · exact H
    · cases h.symm.trans hkind
    · exact H
  other {turn} h g := by
    rcases turn.unit_cases g with ⟨hkind, -⟩ | ⟨-, H⟩ | ⟨-, -, H⟩
    · exact (h hkind).elim
    · exact H
    · exact H
  apart := Place.apart_carPark_station
  apart' := Place.apart_station_carPark

theorem fedBy_station : FedBy R (Station R) (CarPark R) .bikeRental where
  own {turn} h g := by
    rcases turn.unit_cases g with ⟨hkind, -⟩ | ⟨-, H⟩ | ⟨-, -, H⟩
    · cases h.symm.trans hkind
    · exact H
    · exact H
  other {turn} h g := by
    rcases turn.unit_cases g with ⟨-, H⟩ | ⟨hkind, -⟩ | ⟨-, H, -⟩
    · exact H
    · exact (h hkind).elim
    · exact H
  apart := Place.apart_station_carPark
  apart' := Place.apart_carPark_station

end TripPlanner
