import TripPlanner.Proofs.Feeds
import TripPlanner.Proofs.Turns

/-!
# Ownership

Others work on the graph besides the feeds: they add vertices and edges, and remove vertices
(`Act`). As long as they leave registered vertices to the feeds (`Graph.Spares`), every registered
id has a vertex that stands for it, and the feeds of a kind neither remove nor register a vertex
that anyone else has added (`Graph.keepsToOwn_of_spares`). A registered vertex that is removed by
someone else, though, is replaced by whatever is added next.
-/

namespace TripPlanner

/-- What the writer is told to do, by feeds or by others. -/
inductive Act (R : Type) where
  | turn (turn : Turn R)
  | addVertex (v : Vertex R)
  /-- Nothing is done if an end is missing. -/
  | addEdge (source target : VertexIndex) (kind : EdgeKind R)
  | removeVertex (v : VertexIndex)

namespace Act

variable {R : Type}

def unit [Quantity R] [Geodesy R] : Act R → Graph R → Graph R
  | .turn t => t.unit
  | .addVertex v => fun g => (g.addVertex v).2
  | .addEdge source target kind => fun g => (Deed.addEdge source target kind).run g
  | .removeVertex v => fun g => (g.removeVertex v).2

/-- The kind of feed that acts. -/
def feed? : Act R → Option FeedKind
  | .turn t => some t.kind
  | _ => none

/-- No registered vertex is removed by others than the feeds. -/
def SparesPlaces (g : Graph R) : Act R → Prop
  | .removeVertex v => ¬ g.IsRegistered (CarPark R) v ∧ ¬ g.IsRegistered (Station R) v
  | _ => True

theorem SparesPlaces.ne_removeVertex {g : Graph R} {act : Act R} {v : VertexIndex}
    (H : act.SparesPlaces g)
    (h : g.IsRegistered (CarPark R) v ∨ g.IsRegistered (Station R) v) : act ≠ .removeVertex v := by
  rintro rfl
  exact h.elim H.1 H.2

end Act

namespace Graph

variable {R ρ σ : Type}

instance [Place R ρ] (g : Graph R) (v : VertexIndex) : Decidable (g.IsRegistered ρ v) :=
  decidable_of_iff _ mem_registered_iff

instance (g : Graph R) (act : Act R) : Decidable (act.SparesPlaces g) :=
  match act with
  | .turn _ | .addVertex _ | .addEdge .. => isTrue trivial
  | .removeVertex _ => inferInstanceAs (Decidable (_ ∧ _))

variable [Quantity R] [Geodesy R] [Place R ρ] [Place R σ] {g next : Graph R} {kind : FeedKind}
  {acts : List (Act R)} {act : Act R} {id : String} {v : VertexIndex} {vertex : Vertex R}

/-- The graph after some acts. -/
def enacted (g : Graph R) (acts : List (Act R)) : Graph R := g.written (acts.map Act.unit)

/-- Whenever others than the feeds remove a vertex, it is not a registered one. -/
def Spares (g : Graph R) : List (Act R) → Prop
  | [] => True
  | act :: acts => act.SparesPlaces g ∧ Spares (act.unit g).bumpVersion acts

instance decidableSpares : ∀ (g : Graph R) (acts : List (Act R)), Decidable (g.Spares acts)
  | _, [] => isTrue trivial
  | g, act :: acts =>
    @instDecidableAnd _ _ (inferInstanceAs (Decidable (act.SparesPlaces g)))
      (decidableSpares (act.unit g).bumpVersion acts)

/-- A vertex that was there at the start or has come by an act of others than the feeds of a kind,
and is still there. -/
inductive Foreign (kind : FeedKind) (g : Graph R) :
    List (Act R) → VertexIndex → Vertex R → Prop where
  | start {v : VertexIndex} {vertex : Vertex R} : g.vertex? v = some vertex →
      Foreign kind g [] v vertex
  | comes {acts : List (Act R)} {act : Act R} {v : VertexIndex} {vertex : Vertex R} :
      act.feed? ≠ some kind → (g.enacted acts).vertex? v ≠ some vertex →
      (g.enacted (acts ++ [act])).vertex? v = some vertex → Foreign kind g (acts ++ [act]) v vertex
  | stays {acts : List (Act R)} {act : Act R} {v : VertexIndex} {vertex : Vertex R} :
      Foreign kind g acts v vertex → (g.enacted (acts ++ [act])).vertex? v = some vertex →
      Foreign kind g (acts ++ [act]) v vertex

/-- After some acts, the feeds of a kind have kept to their own, and will. -/
structure KeepsToOwn (ρ : Type) [Place R ρ] (kind : FeedKind) (g : Graph R)
    (acts : List (Act R)) : Prop where
  /-- The vertex registered for an id is there and stands for that id. -/
  standsFor : ∀ {id v}, ((g.enacted acts).registry ρ).vertex? id = some v →
    (g.enacted acts).StandsFor ρ v id
  /-- A vertex that others have added is not registered, and no act of these feeds removes or
  registers it. -/
  foreign : ∀ {v vertex}, g.Foreign kind acts v vertex →
    ¬ (g.enacted acts).IsRegistered ρ v ∧ ∀ act : Act R, act.feed? = some kind →
      (g.enacted (acts ++ [act])).vertex? v = some vertex ∧
        ¬ (g.enacted (acts ++ [act])).IsRegistered ρ v

/-! ## One act -/

theorem enacted_concat : g.enacted (acts ++ [act]) = (act.unit (g.enacted acts)).bumpVersion := by
  rw [enacted, List.map_append, List.map_singleton, written_concat]
  rfl

omit [Geodesy R] [Quantity R] in
/-- Looking after places of one kind keeps the places of another one, too. -/
theorem LooksAfter.placed_both (H : LooksAfter ρ σ g next) (h : Place.Apart R ρ σ)
    (hplaced : g.Placed ρ) (hplaced' : g.Placed σ) : next.Placed ρ ∧ next.Placed σ := by
  refine ⟨H.placed hplaced, hplaced'.of_kept H.registry fun {v vertex id} hvertex hkind => ?_⟩
  refine H.mindsOwn.kept hvertex ?_
  rintro ⟨k, hk⟩
  exact (Placed.standsFor hplaced hk).ne h ⟨vertex, hvertex, hkind⟩

omit [Quantity R] [Geodesy R] in
theorem registry_eq_of_services (h : next.services = g.services) :
    next.registry ρ = g.registry ρ := by
  rw [registry, h, registry]

/-- Who is no feed leaves the services as they are, and removes a vertex only if told to. -/
theorem unit_of_no_feed (h : act.feed? = none) : (act.unit g).services = g.services ∧
    ∀ {v vertex}, g.vertex? v = some vertex → act ≠ .removeVertex v →
      (act.unit g).vertex? v = some vertex := by
  unfold Act.unit
  match act with
  | .turn _ => cases h
  | .addVertex w =>
    refine ⟨rfl, fun {v vertex} hv _ => ?_⟩
    exact vertex?_addVertex.trans ((if_neg (ne_next_of_vertex? hv)).trans hv)
  | .addEdge source target kind =>
    have hrun : ((Deed.addEdge source target kind).run g).services = g.services ∧
        ((Deed.addEdge source target kind).run g).vertices = g.vertices := by
      rcases run_addEdge g source target kind with hrun | hrun <;> rw [hrun] <;> exact ⟨rfl, rfl⟩
    exact ⟨hrun.1, fun {v _} hv _ => (congrArg (Arena.get? · v) hrun.2).trans hv⟩
  | .removeVertex w =>
    refine ⟨rfl, fun {v vertex} hv hne => vertex?_removeVertex.trans ?_⟩
    rw [if_neg, hv]
    rintro rfl
    exact hne rfl

omit [Quantity R] [Geodesy R] in
theorem turn_of_feed? {own : FeedKind} (h : act.feed? = some own) :
    ∃ t, act = .turn t ∧ t.kind = own := by
  match act with
  | .turn t => exact ⟨t, rfl, Option.some.inj h⟩
  | .addVertex _ | .addEdge .. | .removeVertex _ => cases h

section
variable (H : FedBy R ρ σ kind) (hplaced : g.Placed ρ) (hplaced' : g.Placed σ)
include H hplaced hplaced'

/-- What others do leaves a registry and its vertices alone, if they spare these. -/
theorem kept_of_other (hother : act.feed? ≠ some kind)
    (hspares : ∀ {v}, g.IsRegistered ρ v → act ≠ .removeVertex v) :
    (act.unit g).registry ρ = g.registry ρ ∧ ∀ {v vertex}, g.IsRegistered ρ v →
      g.vertex? v = some vertex → (act.unit g).vertex? v = some vertex := by
  cases hfeed : act.feed? with
  | none =>
    obtain ⟨hservices, hkept⟩ := unit_of_no_feed (g := g) hfeed
    exact ⟨registry_eq_of_services hservices, fun hv hvertex => hkept hvertex (hspares hv)⟩
  | some own =>
    obtain ⟨t, rfl, rfl⟩ := turn_of_feed? hfeed
    have hafter := H.other (fun h => hother (hfeed.trans (congrArg some h))) g
    refine ⟨hafter.registry, ?_⟩
    rintro v vertex ⟨id, hid⟩ hvertex
    refine hafter.mindsOwn.kept hvertex ?_
    rintro ⟨k, hk⟩
    exact (Placed.standsFor hplaced hid).ne H.apart (Placed.standsFor hplaced' hk)

theorem placed_unit (hspares : ∀ {v}, g.IsRegistered ρ v → act ≠ .removeVertex v) :
    (act.unit g).Placed ρ := by
  intro k hk
  by_cases hown : act.feed? = some kind
  · obtain ⟨t, rfl, rfl⟩ := turn_of_feed? hown
    exact (H.own rfl g).placed hplaced hk
  · obtain ⟨hregistry, hkept⟩ := kept_of_other H hplaced hplaced' hown hspares
    rw [hregistry] at hk ⊢
    obtain ⟨v, hv, vertex, hvertex, hkind⟩ := hplaced hk
    exact ⟨v, hv, vertex, hkept ⟨k, hv⟩ hvertex, hkind⟩

end

/-! ## All acts -/

theorem spares_concat : g.Spares (acts ++ [act]) ↔
    g.Spares acts ∧ act.SparesPlaces (g.enacted acts) := by
  induction acts generalizing g with
  | nil => exact and_comm
  | cons first acts ih =>
    rw [List.cons_append, Spares, ih, ← and_assoc, enacted, enacted, List.map_cons, written_cons]
    rfl

theorem placed_enacted (hparks : g.services.carParks = none) (hrental : g.services.rental = none)
    (hspares : g.Spares acts) :
    (g.enacted acts).Placed (CarPark R) ∧ (g.enacted acts).Placed (Station R) := by
  induction acts using List.reverseRecOn with
  | nil => exact (registry_eq_empty hparks hrental).imp placed_of_empty placed_of_empty
  | append_singleton acts act ih =>
    obtain ⟨hbefore, hact⟩ := spares_concat.1 hspares
    obtain ⟨hplaced, hplaced'⟩ := ih hbefore
    rw [enacted_concat]
    exact ⟨placed_unit fedBy_carPark hplaced hplaced' fun hv => hact.ne_removeVertex (.inl hv),
      placed_unit fedBy_station hplaced' hplaced fun hv => hact.ne_removeVertex (.inr hv)⟩

section
variable (h : FedBy R ρ σ kind) (hstart : g.registry ρ = .empty)
  (hplaced : ∀ acts, g.Spares acts → (g.enacted acts).Placed ρ ∧ (g.enacted acts).Placed σ)
  (hspared : ∀ {g : Graph R} {act : Act R} {v : VertexIndex}, act.SparesPlaces g →
    g.IsRegistered ρ v → act ≠ .removeVertex v)
include h hstart hplaced hspared

/-- What others have added is not registered. -/
theorem Foreign.not_isRegistered (H : g.Foreign kind acts v vertex) (hspares : g.Spares acts) :
    (g.enacted acts).vertex? v = some vertex ∧ ¬ (g.enacted acts).IsRegistered ρ v := by
  induction H with
  | start hv =>
    exact ⟨hv, not_isRegistered_of_empty hstart⟩
  | @comes acts act v vertex hother hbefore hafter =>
    obtain ⟨hacts, hact⟩ := spares_concat.1 hspares
    obtain ⟨hown, hforeign⟩ := hplaced acts hacts
    obtain ⟨hregistry, hkept⟩ := kept_of_other h hown hforeign hother (hspared hact)
    refine ⟨hafter, fun hregistered => ?_⟩
    rw [enacted_concat] at hregistered hafter
    obtain ⟨id, hid⟩ := (IsRegistered.congr hregistry).1 hregistered
    -- The registered vertex was there before, and has been kept.
    obtain ⟨old, hold, -⟩ := Placed.standsFor hown hid
    cases (hkept ⟨id, hid⟩ hold).symm.trans hafter
    exact hbefore hold
  | @stays acts act v vertex _ hafter ih =>
    obtain ⟨hacts, hact⟩ := spares_concat.1 hspares
    obtain ⟨hv, hnot⟩ := ih hacts
    refine ⟨hafter, ?_⟩
    rw [enacted_concat]
    by_cases hkind : act.feed? = some kind
    · obtain ⟨t, rfl, rfl⟩ := turn_of_feed? hkind
      exact (h.own rfl _).mindsOwn.not_isRegistered hv hnot
    · obtain ⟨hown, hforeign⟩ := hplaced acts hacts
      obtain ⟨hregistry, -⟩ := kept_of_other h hown hforeign hkind (hspared hact)
      exact mt (IsRegistered.congr hregistry).1 hnot

/-- As long as registered vertices are left to them, the feeds of a kind keep to their own. -/
theorem keepsToOwn_of_fedBy (hspares : g.Spares acts) : g.KeepsToOwn ρ kind acts where
  standsFor hv := Placed.standsFor (hplaced acts hspares).1 hv
  foreign {v vertex} H := by
    obtain ⟨hv, hnot⟩ := H.not_isRegistered h hstart hplaced hspared hspares
    refine ⟨hnot, fun act hact => ?_⟩
    obtain ⟨t, rfl, hkind⟩ := turn_of_feed? hact
    have hown := (h.own hkind (g.enacted acts)).mindsOwn
    rw [enacted_concat]
    exact ⟨hown.kept hv hnot, hown.not_isRegistered hv hnot⟩

end

omit [Geodesy R] in
/-- The index of a vertex that is removed goes to the next one that is added. -/
theorem vertex?_addVertex_removeVertex {old : Vertex R} (h : g.vertex? v = some old) :
    ((g.removeVertex v).2.addVertex vertex).2.vertex? v = some vertex := by
  rw [vertex?_addVertex, if_pos]
  exact (Arena.next_erase (Arena.mem_indices_iff.2 ⟨old, h⟩)).symm

/-- From any graph without car parks and rental stations, whatever feeds and others do: as long as
the others leave registered vertices to the feeds, the feeds keep to their own. A registered vertex
that others remove is replaced by the next one that is added, whatever that is. -/
theorem keepsToOwn_of_spares (hparks : g.services.carParks = none)
    (hrental : g.services.rental = none) (hspares : g.Spares acts) :
    g.KeepsToOwn (CarPark R) .carPark acts ∧ g.KeepsToOwn (Station R) .bikeRental acts ∧
      ∀ {τ : Type} [Place R τ] {id : String} {v : VertexIndex} {old new : Vertex R},
        ((g.enacted acts).registry τ).vertex? id = some v →
        (g.enacted acts).vertex? v = some old →
        ((g.enacted (acts ++ [.removeVertex v] ++ [.addVertex new])).registry τ).vertex? id =
            some v ∧
          (g.enacted (acts ++ [.removeVertex v] ++ [.addVertex new])).vertex? v = some new := by
  obtain ⟨hempty, hempty'⟩ := registry_eq_empty hparks hrental
  have hplaced : ∀ acts, g.Spares acts →
      (g.enacted acts).Placed (CarPark R) ∧ (g.enacted acts).Placed (Station R) :=
    fun _ => placed_enacted hparks hrental
  refine ⟨?_, ?_, fun hid hv => ?_⟩
  · exact keepsToOwn_of_fedBy fedBy_carPark hempty hplaced
      (fun hact hv => hact.ne_removeVertex (.inl hv)) hspares
  · exact keepsToOwn_of_fedBy fedBy_station hempty' (fun acts h => (hplaced acts h).symm)
      (fun hact hv => hact.ne_removeVertex (.inr hv)) hspares
  · rw [enacted_concat, enacted_concat]
    exact ⟨hid, vertex?_addVertex_removeVertex hv⟩

end Graph

/-! ## A town that is built on -/

namespace Town

def parkFeed : Updater := ⟨.carPark, "parking", none, ∅⟩

def stationFeed : Updater := ⟨.bikeRental, "rental", none, ∅⟩

def north : Vertex ℚ := .intersection "north" ⟨0, 1⟩

def south : Vertex ℚ := .intersection "south" ⟨0, -1⟩

/-- A car park is announced, an intersection comes and goes, and so does the car park. Its index
goes to another intersection. -/
def acts : List (Act ℚ) :=
  [.turn (.poll parkFeed (.carParks [park "p" 1])), .addVertex north,
    .turn (.poll stationFeed (.stations [station "s"])), .removeVertex 3,
    .turn (.poll parkFeed (.carParks [])), .addVertex south, .addEdge 2 0 (.link 100),
    .turn (.poll parkFeed (.carParks [park "q" 1]))]

/-- The intersection that has got the index of a car park is left alone. -/
theorem keepsToOwn_acts : street.Spares acts ∧
    ((street.enacted (acts.take 1)).registry (CarPark ℚ)).vertex? "p" = some 2 ∧
    (street.enacted acts).vertex? 2 = some south ∧
    ((street.enacted acts).registry (CarPark ℚ)).vertex? "q" = some 3 ∧
    street.KeepsToOwn (CarPark ℚ) .carPark acts ∧
    street.KeepsToOwn (Station ℚ) .bikeRental acts := by
  have hspares : street.Spares acts := by decide +kernel
  obtain ⟨hparks, hstations, -⟩ := Graph.keepsToOwn_of_spares (g := street) rfl rfl hspares
  exact ⟨hspares, by decide +kernel, by decide +kernel, by decide +kernel, hparks, hstations⟩

/-- The vertex of a car park is removed, and an intersection is added. -/
def replacing : List (Act ℚ) :=
  [.turn (.poll parkFeed (.carParks [park "p" 1])), .removeVertex 2, .addVertex north]

/-- The intersection is taken for the car park, and removed when the car park is dropped. -/
theorem not_keepsToOwn_replacing :
    ((street.enacted replacing).registry (CarPark ℚ)).vertex? "p" = some 2 ∧
    (street.enacted replacing).vertex? 2 = some north ∧
    street.Foreign .carPark replacing 2 north ∧
    (street.enacted (replacing ++ [.turn (.poll parkFeed (.carParks []))])).vertex? 2 = none ∧
    ¬ street.KeepsToOwn (CarPark ℚ) .carPark replacing := by
  have hid : ((street.enacted replacing).registry (CarPark ℚ)).vertex? "p" = some 2 := by
    decide +kernel
  have hv : (street.enacted replacing).vertex? 2 = some north := by decide +kernel
  refine ⟨hid, hv, ?_, by decide +kernel, fun H => ?_⟩
  · change street.Foreign .carPark (replacing.take 2 ++ [.addVertex north]) 2 north
    exact .comes (by decide) (by decide +kernel) hv
  · obtain ⟨vertex, hvertex, hkind⟩ := H.standsFor hid
    cases hv.symm.trans hvertex
    cases hkind

end Town

end TripPlanner
