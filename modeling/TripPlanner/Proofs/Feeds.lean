import Mathlib.Data.List.Induction
import TripPlanner.Proofs.Placement
import TripPlanner.Proofs.Upkeep

/-!
# Feeds in step

A graph that starts without car parks and rental stations and is kept up to date by feeds, while
vertices and edges are added to it (`Deed`). At any time both registries are those of the last
lists, every registered id has a vertex of its own that it keeps from list to list, and there are
no vertices but these and those that were there or were added (`Graph.inStep_after`).
-/

namespace TripPlanner

/-- What is done to a graph that feeds keep up to date. -/
inductive Deed (R : Type) where
  /-- Data is brought in. -/
  | feed (data : FeedData R)
  | addVertex (v : Vertex R)
  /-- Nothing is done if an end is missing. -/
  | addEdge (source target : VertexIndex) (kind : EdgeKind R)

namespace Deed

variable {R : Type} [Quantity R] [Geodesy R]

/-- The graph afterwards. -/
def run (g : Graph R) : Deed R → Graph R
  | .feed data => data.apply g
  | .addVertex v => (g.addVertex v).2
  | .addEdge source target kind =>
    match g.addEdge source target kind with
    | .ok (_, next) => next
    | .error _ => g

omit [Quantity R] [Geodesy R]

/-- The list of car parks that is brought in. -/
def carParks? : Deed R → Option (List (CarPark R))
  | .feed (.carParks records) => some records
  | _ => none

/-- The list of stations that is brought in. -/
def stations? : Deed R → Option (List (Station R))
  | .feed (.stations records) => some records
  | _ => none

/-- How many vertices are added, those for places left aside. -/
def newVertices : Deed R → Nat
  | .addVertex _ => 1
  | _ => 0

theorem list_cases (d : Deed R) : (∃ records, d = .feed (.carParks records)) ∨
    (∃ records, d = .feed (.stations records)) ∨ d.carParks? = none ∧ d.stations? = none := by
  match d with
  | .feed (.carParks records) => exact .inl ⟨records, rfl⟩
  | .feed (.stations records) => exact .inr (.inl ⟨records, rfl⟩)
  | .feed (.roadworks ..) | .addVertex _ | .addEdge .. => exact .inr (.inr ⟨rfl, rfl⟩)

end Deed

namespace Graph

variable {R ρ : Type} [Quantity R] [Geodesy R] [Place R ρ] {g next : Graph R} {d : Deed R}
  {deeds : List (Deed R)} {list? : Deed R → Option (List ρ)} {id k : String} {v : VertexIndex}

/-- The graph after some deeds. -/
def after (g : Graph R) (deeds : List (Deed R)) : Graph R := deeds.foldl Deed.run g

omit [Quantity R] [Geodesy R] [Place R ρ] in
/-- The last list that was brought in, empty if there was none. -/
def lastList (list? : Deed R → Option (List ρ)) (deeds : List (Deed R)) : List ρ :=
  (deeds.reverse.findSome? list?).getD []

/-- What the places of one kind have to do with the lists that were brought in. -/
structure InStep (g : Graph R) (list? : Deed R → Option (List ρ)) (deeds : List (Deed R)) :
    Prop where
  /-- The ids of the last list are registered. -/
  mem_ids_iff : ∀ {id}, id ∈ ((g.after deeds).registry ρ).ids ↔
    id ∈ (lastList list? deeds).map Place.id
  /-- The last record of an id counts, completed by what it does not tell. -/
  record? : ∀ id, ((g.after deeds).registry ρ).record? id =
    (Place.last? (lastList list? deeds) id).map Place.complete
  placed : (g.after deeds).Placed ρ
  distinct : ∀ {id k v}, ((g.after deeds).registry ρ).vertex? id = some v →
    ((g.after deeds).registry ρ).vertex? k = some v → id = k
  /-- An id that no list leaves out keeps its vertex. -/
  keeps : ∀ {past later id v}, deeds = past ++ later →
    ((g.after past).registry ρ).vertex? id = some v →
    (∀ d ∈ later, ∀ records, list? d = some records → id ∈ records.map Place.id) →
    ((g.after deeds).registry ρ).vertex? id = some v

/-- A deed brings in a list of records, or leaves registered records and their vertices alone. -/
inductive Attends (g : Graph R) : Option (List ρ) → Graph R → Prop where
  | list (records : List ρ) : Attends g (some records) (g.applyRecords records)
  | other {next : Graph R} : next.registry ρ = g.registry ρ → (g.Placed ρ → next.Placed ρ) →
      Attends g none next

theorem after_concat : g.after (deeds ++ [d]) = d.run (g.after deeds) := by
  simp [after]

omit [Quantity R] [Geodesy R] [Place R ρ] in
theorem lastList_concat :
    lastList list? (deeds ++ [d]) = (list? d).getD (lastList list? deeds) := by
  rw [lastList, List.reverse_append]
  cases h : list? d <;> simp [lastList, h]

/-! ## One deed -/

theorem run_addEdge (g : Graph R) (source target : VertexIndex) (kind : EdgeKind R) :
    (Deed.addEdge source target kind).run g = g ∨
      (Deed.addEdge source target kind).run g = (g.connect source target kind).2 := by
  unfold Deed.run
  dsimp only
  split
  · exact .inr (eq_of_addEdge ‹_›).2.2
  · exact .inl rfl

/-- A deed that brings in no list of records leaves the registries as they are. No vertex goes. -/
theorem run_of_no_list (hparks : d.carParks? = none) (hstations : d.stations? = none) :
    (d.run g).registry (CarPark R) = g.registry (CarPark R) ∧
      (d.run g).registry (Station R) = g.registry (Station R) ∧
      (∀ {v vertex}, g.vertex? v = some vertex → (d.run g).vertex? v = some vertex) ∧
      (d.run g).vertexCount = g.vertexCount + d.newVertices := by
  match d with
  | .feed (.roadworks ways areas) => exact ⟨rfl, rfl, fun h => h, rfl⟩
  | .addVertex v =>
    refine ⟨rfl, rfl, fun {w vertex} h => ?_, Arena.size_insert _ _⟩
    exact vertex?_addVertex.trans ((if_neg (ne_next_of_vertex? h)).trans h)
  | .addEdge source target kind =>
    rcases run_addEdge g source target kind with h | h
    · rw [h]
      exact ⟨rfl, rfl, fun h => h, rfl⟩
    · rw [h]
      exact ⟨rfl, rfl, fun h => h, rfl⟩

theorem attends_carParks (hstations : g.Placed (Station R)) :
    g.Attends d.carParks? (d.run g) := by
  rcases d.list_cases with ⟨records, rfl⟩ | ⟨records, rfl⟩ | ⟨hparks, hnone⟩
  · exact .list records
  · have htends := Tends.applyRecords hstations records
    exact .other (htends.registry Place.apart_station_carPark)
      (htends.placed_apart Place.apart_station_carPark)
  · obtain ⟨hregistry, -, hkept, -⟩ := run_of_no_list (g := g) hparks hnone
    rw [hparks]
    exact .other hregistry fun H => H.of_kept hregistry fun h _ => hkept h

theorem attends_stations (hparks : g.Placed (CarPark R)) :
    g.Attends d.stations? (d.run g) := by
  rcases d.list_cases with ⟨records, rfl⟩ | ⟨records, rfl⟩ | ⟨hnone, hstations⟩
  · have htends := Tends.applyRecords hparks records
    exact .other (htends.registry Place.apart_carPark_station)
      (htends.placed_apart Place.apart_carPark_station)
  · exact .list records
  · obtain ⟨-, hregistry, hkept, -⟩ := run_of_no_list (g := g) hnone hstations
    rw [hstations]
    exact .other hregistry fun H => H.of_kept hregistry fun h _ => hkept h

/-- The number of registered places. -/
def placeCount (g : Graph R) : Nat :=
  (g.registry (CarPark R)).size + (g.registry (Station R)).size

/-- Vertices come and go with the places, but for those that are added as such. -/
theorem vertexCount_run (hparks : g.Placed (CarPark R)) (hstations : g.Placed (Station R)) :
    (d.run g).vertexCount + g.placeCount =
      g.vertexCount + d.newVertices + (d.run g).placeCount := by
  rcases d.list_cases with ⟨records, rfl⟩ | ⟨records, rfl⟩ | ⟨hnone, hnone'⟩
  · have htends := Tends.applyRecords hparks records
    have hcount := htends.count
    have hother := htends.registry Place.apart_carPark_station
    simp only [placeCount, Deed.run, FeedData.apply, Deed.newVertices, hother]
    omega
  · have htends := Tends.applyRecords hstations records
    have hcount := htends.count
    have hother := htends.registry Place.apart_station_carPark
    simp only [placeCount, Deed.run, FeedData.apply, Deed.newVertices, hother]
    omega
  · obtain ⟨hregistry, hregistry', -, hcount⟩ := run_of_no_list (g := g) hnone hnone'
    rw [placeCount, placeCount, hregistry, hregistry', hcount]

/-! ## All deeds -/

section
variable [LawfulPlace R ρ]

theorem Attends.placed {list : Option (List ρ)} (H : g.Attends list next) (hplaced : g.Placed ρ) :
    next.Placed ρ := by
  cases H with
  | list records => exact (Tends.applyRecords hplaced records).placed
  | other _ h => exact h hplaced

theorem Attends.record? {list : Option (List ρ)} {before : List ρ} (H : g.Attends list next)
    (h : (g.registry ρ).record? id = (Place.last? before id).map Place.complete) :
    (next.registry ρ).record? id =
      (Place.last? (list.getD before) id).map Place.complete := by
  cases H with
  | list records => exact record?_applyRecords
  | other hregistry _ => rw [hregistry, h, Option.getD_none]

theorem Attends.vertex? {list : Option (List ρ)} (H : g.Attends list next) (hplaced : g.Placed ρ)
    (hv : (g.registry ρ).vertex? id = some v)
    (hlist : ∀ records, list = some records → id ∈ records.map Place.id) :
    (next.registry ρ).vertex? id = some v := by
  cases H with
  | list records =>
    rw [vertex?_applyRecords hplaced (Registry.mem_ids_of_vertex? hv) (hlist records rfl), hv]
  | other hregistry _ => rw [hregistry, hv]

section
variable (hstart : g.registry ρ = .empty)
  (hattends : ∀ deeds d, (g.after deeds).Attends (list? d) (g.after (deeds ++ [d])))
include hstart hattends

theorem placed_of_attends (deeds : List (Deed R)) : (g.after deeds).Placed ρ := by
  induction deeds using List.reverseRecOn with
  | nil => exact placed_of_empty hstart
  | append_singleton deeds d ih => exact (hattends deeds d).placed ih

theorem record?_of_attends (deeds : List (Deed R)) (id : String) :
    ((g.after deeds).registry ρ).record? id =
      (Place.last? (lastList list? deeds) id).map Place.complete := by
  induction deeds using List.reverseRecOn with
  | nil =>
    rw [after, List.foldl_nil, hstart]
    rfl
  | append_singleton deeds d ih =>
    rw [lastList_concat]
    exact (hattends deeds d).record? ih

theorem vertex?_of_attends {past : List (Deed R)} (later : List (Deed R))
    (hv : ((g.after past).registry ρ).vertex? id = some v)
    (hlists : ∀ d ∈ later, ∀ records, list? d = some records → id ∈ records.map Place.id) :
    ((g.after (past ++ later)).registry ρ).vertex? id = some v := by
  induction later using List.reverseRecOn with
  | nil => rwa [List.append_nil]
  | append_singleton later d ih =>
    rw [← List.append_assoc]
    refine (hattends (past ++ later) d).vertex? (placed_of_attends hstart hattends _) ?_ ?_
    · exact ih fun d hd => hlists d (List.mem_append_left _ hd)
    · exact hlists d (List.mem_append_right _ List.mem_cons_self)

/-- What single deeds have to do with the places of one kind adds up. -/
theorem inStep_of_attends (deeds : List (Deed R)) : g.InStep list? deeds where
  mem_ids_iff {id} := by
    rw [Registry.mem_ids_iff, record?_of_attends hstart hattends, Place.exists_complete_iff]
  record? := record?_of_attends hstart hattends deeds
  placed := placed_of_attends hstart hattends deeds
  distinct hv hv' := by
    have hplaced : (g.after deeds).Placed ρ := placed_of_attends hstart hattends deeds
    exact (Placed.standsFor hplaced hv).eq (Placed.standsFor hplaced hv')
  keeps := by
    rintro past later id v rfl hv hlists
    exact vertex?_of_attends hstart hattends later hv hlists

end

end

/-! ## Both kinds -/

omit [Quantity R] [Geodesy R] in
theorem registry_eq_empty (hparks : g.services.carParks = none)
    (hrental : g.services.rental = none) :
    g.registry (CarPark R) = .empty ∧ g.registry (Station R) = .empty := by
  simp [registry, Place.registry?, hparks, hrental]

omit [Quantity R] [Geodesy R] in
theorem registries_of_empty (h : g.services = .empty) :
    g.registry (CarPark R) = .empty ∧ g.registry (Station R) = .empty :=
  registry_eq_empty (congrArg Services.carParks h) (congrArg Services.rental h)

theorem placed_after (hparks : g.services.carParks = none) (hrental : g.services.rental = none)
    (deeds : List (Deed R)) :
    (g.after deeds).Placed (CarPark R) ∧ (g.after deeds).Placed (Station R) := by
  induction deeds using List.reverseRecOn with
  | nil => exact (registry_eq_empty hparks hrental).imp placed_of_empty placed_of_empty
  | append_singleton deeds d ih =>
    rw [after_concat]
    exact ⟨(attends_carParks ih.2).placed ih.1, (attends_stations ih.1).placed ih.2⟩

theorem vertexCount_after (hparks : g.services.carParks = none)
    (hrental : g.services.rental = none) (deeds : List (Deed R)) :
    (g.after deeds).vertexCount =
      g.vertexCount + (deeds.map Deed.newVertices).sum + (g.after deeds).placeCount := by
  induction deeds using List.reverseRecOn with
  | nil =>
    obtain ⟨hempty, hempty'⟩ := registry_eq_empty hparks hrental
    rw [after, List.foldl_nil, placeCount, hempty, hempty']
    rfl
  | append_singleton deeds d ih =>
    obtain ⟨hplaced, hplaced'⟩ := placed_after hparks hrental deeds
    have hrun := vertexCount_run (d := d) hplaced hplaced'
    rw [after_concat, List.map_append, List.sum_append]
    simp only [List.map_cons, List.map_nil, List.sum_cons, List.sum_nil]
    omega

/-- From any graph without car parks and rental stations, whatever is brought in and added: both
registries are in step with their feeds, no vertex stands for a car park and a station, and vertices
only come and go with the places, but for those that are added as such. -/
theorem inStep_after (hparks : g.services.carParks = none) (hrental : g.services.rental = none)
    (deeds : List (Deed R)) :
    g.InStep Deed.carParks? deeds ∧ g.InStep Deed.stations? deeds ∧
      (∀ {id k v}, ((g.after deeds).registry (CarPark R)).vertex? id = some v →
        ((g.after deeds).registry (Station R)).vertex? k ≠ some v) ∧
      (g.after deeds).vertexCount = g.vertexCount + (deeds.map Deed.newVertices).sum +
        ((g.after deeds).registry (CarPark R)).size +
          ((g.after deeds).registry (Station R)).size := by
  have hplaced := placed_after hparks hrental
  obtain ⟨hempty, hempty'⟩ := registry_eq_empty hparks hrental
  refine ⟨inStep_of_attends hempty (fun deeds d => ?_) deeds,
    inStep_of_attends hempty' (fun deeds d => ?_) deeds, fun hv hv' => ?_, ?_⟩
  · rw [after_concat]
    exact attends_carParks (hplaced deeds).2
  · rw [after_concat]
    exact attends_stations (hplaced deeds).1
  · have hpark := Placed.standsFor (hplaced deeds).1 hv
    exact hpark.ne Place.apart_carPark_station (Placed.standsFor (hplaced deeds).2 hv')
  · rw [vertexCount_after hparks hrental, placeCount, Nat.add_assoc, Nat.add_assoc, Nat.add_assoc]

end Graph

/-! ## A small town -/

namespace Town

/-- A street. -/
def street : Graph ℚ :=
  .build [.intersection "west" ⟨0, 0⟩, .intersection "east" ⟨1, 0⟩]
    [(0, 1, .street (.plain 1 1000 .allStreet))]

/-- A car park with some free spaces. -/
def park (id : String) (spaces : Nat) : CarPark ℚ := ⟨id, id, ⟨0, 0⟩, spaces, 100, true⟩

/-- A station that names no network. -/
def station (id : String) : Station ℚ := ⟨id, id, ⟨1, 0⟩, 5, 5, .empty⟩

/-- Two car parks, one of them told twice, a new intersection and a station. Then the car park that
was told twice is gone, and a second station comes. -/
def deeds : List (Deed ℚ) :=
  [.feed (.carParks [park "p" 1, park "q" 2, park "p" 3]),
    .addVertex (.intersection "north" ⟨0, 1⟩), .feed (.stations [station "s"]),
    .feed (.carParks [park "q" 4]),
    .feed (.stations [station "s", station "t"])]

/-- The second station gets the index of the car park that has gone, the other car park keeps its
own, and every vertex is accounted for. -/
theorem inStep_deeds : street.InStep Deed.carParks? deeds ∧ street.InStep Deed.stations? deeds ∧
    ((street.after deeds).registry (CarPark ℚ)).ids = ["q"] ∧
    ((street.after (deeds.take 1)).registry (CarPark ℚ)).vertex? "p" = some 2 ∧
    ((street.after deeds).registry (Station ℚ)).vertex? "t" = some 2 ∧
    ((street.after (deeds.take 1)).registry (CarPark ℚ)).vertex? "q" = some 3 ∧
    ((street.after deeds).registry (CarPark ℚ)).vertex? "q" = some 3 ∧
    (street.after deeds).vertexCount = 2 + 1 + 1 + 2 := by
  obtain ⟨hparks, hstations, -, hcount⟩ := Graph.inStep_after (g := street) rfl rfl deeds
  exact ⟨hparks, hstations, by decide +kernel, by decide +kernel, by decide +kernel,
    by decide +kernel, by decide +kernel, hcount.trans (by decide +kernel)⟩

end Town

end TripPlanner
