import Mathlib.Data.List.Induction
import TripPlanner.Proofs.Construction
import TripPlanner.Proofs.Ownership
import TripPlanner.Proofs.Regulation

/-!
# Restoration

Feeds leave a graph without services as they have found it: once they have set up their services,
brought in what they had in any order, and taken everything back in any order, its vertices, edges
and all else are as before, but for the version and the number of the next edge
(`Graph.restores_whole`). Meanwhile all that they add hangs on vertices of their own
(`Graph.Surrounds`), and these are registered (`Graph.Accounted`).
-/

namespace TripPlanner

namespace Graph

variable {R ρ σ : Type} [Place R ρ] [Place R σ] {base g next : Graph R} {e : EdgeIndex}
  {edge : Edge R} {v : VertexIndex}

/-! ## Whose the vertices are -/

/-- What is registered is no vertex of some graph, and what is neither registered nor one of its
vertices is not there. -/
structure Accounted (base : Graph R) (ρ σ : Type) [Place R ρ] [Place R σ] (g : Graph R) :
    Prop where
  besides : ∀ {v}, g.IsRegistered ρ v ∨ g.IsRegistered σ v → base.vertex? v = none
  cases : ∀ {v vertex}, g.vertex? v = some vertex →
    base.vertex? v = some vertex ∨ g.IsRegistered ρ v ∨ g.IsRegistered σ v

theorem Accounted.symm (H : Accounted base ρ σ g) : Accounted base σ ρ g where
  besides h := H.besides h.symm
  cases h := (H.cases h).imp_right Or.symm

section
variable (hkept : ∀ {v vertex}, base.vertex? v = some vertex → g.vertex? v = some vertex)
include hkept

theorem Accounted.disposes (H : Accounted base ρ σ g) :
    g.Disposes ρ fun v => base.vertex? v = none := by
  rintro v (hregistered | hfree)
  · exact H.besides (.inl hregistered)
  · exact vertex?_eq_none_of_kept (fun _ => hkept) hfree

theorem Accounted.looksAfter (H : Accounted base ρ σ g) (h : LooksAfter ρ σ g next) :
    Accounted base ρ σ next where
  besides := by
    rintro v (hregistered | hregistered)
    · exact H.disposes hkept v (h.mindsOwn.registers hregistered)
    · exact H.besides (.inr ((IsRegistered.congr h.registry).1 hregistered))
  cases := by
    intro v vertex hv
    rcases h.mindsOwn.live hv with hregistered | ⟨hbefore, hnot⟩
    · exact .inr (.inl hregistered)
    · rcases H.cases hbefore with hbase | hregistered | hregistered
      · exact .inl hbase
      · exact (hnot hregistered).elim
      · exact .inr (.inr ((IsRegistered.congr h.registry).2 hregistered))

end

/-! ## What is there besides -/

/-- All of one graph is in another one, and what there is besides hangs on vertices that are no
intersections. -/
structure Surrounds (base g : Graph R) : Prop where
  regulated : g.Regulated
  vertex? : ∀ {v vertex}, base.vertex? v = some vertex → g.vertex? v = some vertex
  aside : ∀ {v vertex}, base.vertex? v = none → g.vertex? v = some vertex →
    vertex.isStreet = false
  edges : (g.edges.entries.filter fun entry => entry.2.id < base.nextEdgeId) = base.edges.entries
  hangs : ∀ {e edge}, g.edge? e = some edge → base.nextEdgeId ≤ edge.id →
    edge.street? = none ∧ (base.vertex? edge.source = none ∨ base.vertex? edge.target = none)
  restrictions : g.restrictions = base.restrictions
  streetIndex : g.streetIndex = base.streetIndex
  bounds : g.bounds = base.bounds
  nextEdgeId_le : base.nextEdgeId ≤ g.nextEdgeId

theorem Surrounds.edge?_of_lt (H : base.Surrounds g) (he : g.edge? e = some edge)
    (hid : edge.id < base.nextEdgeId) : base.edge? e = some edge := by
  refine Arena.get?_eq_some_iff.2 (H.edges ▸ List.mem_filter.2 ⟨?_, decide_eq_true hid⟩)
  exact Arena.get?_eq_some_iff.1 he

theorem Surrounds.of_eq (H : base.Surrounds g) (services : Services R) (version : Nat) :
    base.Surrounds { g with services := services, version := version } where
  regulated := H.regulated.of_eq rfl rfl rfl
  vertex? := H.vertex?
  aside := H.aside
  edges := H.edges
  hangs := H.hangs
  restrictions := H.restrictions
  streetIndex := H.streetIndex
  bounds := H.bounds
  nextEdgeId_le := H.nextEdgeId_le

/-- A street is one of the graph within, so it touches no vertex besides. -/
theorem Surrounds.isOffStreet (hbase : base.Regulated) (H : base.Surrounds g)
    (hv : base.vertex? v = none) : g.IsOffStreet v := by
  intro e edge hedge hstreet
  have hid : edge.id < base.nextEdgeId := by
    refine Nat.lt_of_not_le fun hle => ?_
    rw [(H.hangs hedge hle).1] at hstreet
    cases hstreet
  exact hbase.ends_ne (H.edge?_of_lt hedge hid) hv

variable [Quantity R]

theorem Surrounds.refl (H : base.Evolved) : base.Surrounds base where
  regulated := H.regulated
  vertex? h := h
  aside hnone h := nomatch hnone.symm.trans h
  edges := List.filter_eq_self.2 fun _ hmem =>
    decide_eq_true (H.coherent.fresh (Arena.get?_eq_some_iff.2 hmem))
  hangs he hid := (Nat.not_le_of_lt (H.coherent.fresh he) hid).elim
  restrictions := rfl
  streetIndex := rfl
  bounds := rfl
  nextEdgeId_le := Nat.le_refl _

theorem Surrounds.addVertex (H : base.Surrounds g) {vertex : Vertex R}
    (hstreet : vertex.isStreet = false) : base.Surrounds (g.addVertex vertex).2 where
  regulated := H.regulated.addVertex vertex
  vertex? h := by
    have hold := H.vertex? h
    rw [vertex?_addVertex, if_neg (ne_next_of_vertex? hold), hold]
  aside hnone h := by
    rw [vertex?_addVertex] at h
    split at h
    · cases h
      exact hstreet
    · exact H.aside hnone h
  edges := H.edges
  hangs := H.hangs
  restrictions := H.restrictions
  streetIndex := by
    change (if vertex.isStreet then _ else g.streetIndex) = _
    rw [hstreet, if_neg Bool.false_ne_true, H.streetIndex]
  bounds := H.bounds
  nextEdgeId_le := H.nextEdgeId_le

theorem Surrounds.connect (H : base.Surrounds g) {source target : VertexIndex} {kind : EdgeKind R}
    (hown : base.vertex? source = none ∨ base.vertex? target = none) (haside : kind.IsAside)
    (hsource : g.vertices.contains source = true) (htarget : g.vertices.contains target = true) :
    base.Surrounds (g.connect source target kind).2 where
  regulated := H.regulated.connect hsource htarget kind
  vertex? := H.vertex?
  aside := H.aside
  edges := by
    -- The new edge has a number that was not given out at the start.
    have hnew : ¬ g.nextEdgeId < base.nextEdgeId := Nat.not_lt_of_le H.nextEdgeId_le
    rw [Graph.connect, Arena.entries_insert, List.filter_cons_of_neg (by simpa using hnew),
      H.edges]
  hangs he hid := by
    rw [edge?_connect] at he
    split at he
    · cases he
      exact ⟨haside.1, hown⟩
    · exact H.hangs he hid
  restrictions := H.restrictions
  streetIndex := H.streetIndex
  bounds := (haside.2 g.bounds).trans H.bounds
  nextEdgeId_le := Nat.le_succ_of_le H.nextEdgeId_le

theorem Surrounds.removeVertex (hbase : base.Regulated) (H : base.Surrounds g)
    (hown : base.vertex? v = none) : base.Surrounds (g.removeVertex v).2 where
  regulated := H.regulated.removeVertex v
  vertex? {w vertex} h := by
    rw [vertex?_removeVertex, if_neg, H.vertex? h]
    rintro rfl
    cases hown.symm.trans h
  aside hnone h := by
    rw [vertex?_removeVertex, Option.ite_none_left_eq_some] at h
    exact H.aside hnone h.2
  edges := by
    change List.filter _ (g.edges.eraseAll (g.incident v)).entries = _
    rw [Arena.entries_eraseAll, List.filter_comm, H.edges, List.filter_eq_self]
    rintro ⟨e, edge⟩ hmem
    refine decide_eq_true fun hincident => ?_
    -- What is at the vertex is none of the edges within.
    obtain ⟨edge', hedge', hend⟩ := mem_incident_iff.1 hincident
    have hedge : g.edge? e = some edge :=
      Arena.get?_eq_some_iff.2 (List.mem_filter.1 (H.edges ▸ hmem)).1
    cases hedge.symm.trans hedge'
    obtain ⟨hsource, htarget⟩ := hbase.ends_ne (Arena.get?_eq_some_iff.2 hmem) hown
    exact hend.elim hsource htarget
  hangs he hid := H.hangs (edge?_removeVertex_iff.1 he).1 hid
  restrictions := by
    rw [H.regulated.restrictions_removeVertex (H.isOffStreet hbase hown), H.restrictions]
  streetIndex :=
    (streetIndex_removeVertex_of_isStreet_eq_false (H.aside hown)).trans H.streetIndex
  bounds := H.bounds
  nextEdgeId_le := H.nextEdgeId_le

theorem Surrounds.ownChange (hbase : base.Regulated) (H : base.Surrounds g)
    (h : OwnChange (fun v => base.vertex? v = none) g next) : base.Surrounds next := by
  cases h with
  | addVertex _ hstreet => exact H.addVertex hstreet
  | connect hown haside hsource htarget => exact H.connect hown haside hsource htarget
  | removeVertex hown => exact H.removeVertex hbase hown
  | modifyServices => exact H.of_eq _ _

theorem Surrounds.upkeep (hbase : base.Regulated) (H : base.Surrounds g)
    (h : Upkeep (fun v => base.vertex? v = none) g next) : base.Surrounds next := by
  induction h with
  | refl => exact H
  | tail _ h ih => exact ih.ownChange hbase h

omit [Quantity R] in
/-- Where there are no vertices besides, there are no edges besides. -/
theorem Surrounds.edges_eq (H : base.Surrounds g)
    (h : ∀ {v vertex}, g.vertex? v = some vertex → base.vertex? v = some vertex) :
    g.edges.entries = base.edges.entries := by
  refine (List.filter_eq_self.2 ?_).symm.trans H.edges
  rintro ⟨e, edge⟩ hmem
  have hedge : g.edge? e = some edge := Arena.get?_eq_some_iff.2 hmem
  refine decide_eq_true (Nat.lt_of_not_le fun hle => ?_)
  obtain ⟨hsource, htarget⟩ := H.regulated.ends hedge
  obtain ⟨_, hsource⟩ := contains_iff.1 hsource
  obtain ⟨_, htarget⟩ := contains_iff.1 htarget
  rcases (H.hangs hedge hle).2 with hnone | hnone
  · cases hnone.symm.trans (h hsource)
  · cases hnone.symm.trans (h htarget)

end Graph

/-! ## Which services are there -/

/-- Whether the service of a kind of feed is there. -/
def Services.offers {R : Type} (services : Services R) : FeedKind → Bool
  | .carPark => services.carParks.isSome
  | .bikeRental => services.rental.isSome
  | .roadworks => services.roadworks.isSome

theorem Services.eq_empty_iff {R : Type} {services : Services R} :
    services = .empty ↔ ∀ kind, services.offers kind = false := by
  refine ⟨?_, fun h => ?_⟩
  · rintro rfl kind
    cases kind <;> rfl
  · obtain ⟨roadworks, carParks, rental⟩ := services
    cases Option.isNone_iff_eq_none.1 (Option.isSome_eq_false_iff.1 (h .roadworks))
    cases Option.isNone_iff_eq_none.1 (Option.isSome_eq_false_iff.1 (h .carPark))
    cases Option.isNone_iff_eq_none.1 (Option.isSome_eq_false_iff.1 (h .bikeRental))
    rfl

namespace Graph

variable {R ρ : Type} [Quantity R] [Place R ρ] {g : Graph R}

theorem services_dropRecords : (g.dropRecords ρ).services = Place.dropService ρ g.services :=
  services_foldl_removeVertex _

theorem services_applyRecords [Geodesy R] [LawfulPlace R ρ] {α : Type} (read : Services R → α)
    (h : ∀ (f : Registry ρ → Registry ρ) services,
      read (Place.modifyRegistry f services) = read services) (records : List ρ) :
    read (g.applyRecords records).services = read g.services := by
  let Kept (next : Graph R) : Prop := read next.services = read g.services
  refine List.foldlRecOn records _ (motive := Kept)
    (List.foldlRecOn (g.staleIds records) _ (motive := Kept) rfl ?_) ?_
  · intro next hnext id _
    exact ((congrArg read (withdraw_eq next ρ id).2).trans (h _ _)).trans hnext
  · intro next hnext record _
    rcases announce_cases next record with ⟨-, -, hservices⟩ | ⟨-, -, hservices⟩ <;>
      exact ((congrArg read hservices).trans (h _ _)).trans hnext

end Graph

namespace Turn

variable {R : Type} [Quantity R] [Geodesy R] {turn : Turn R} {g : Graph R} {kind : FeedKind}

/-- A turn is about the service of its kind. -/
theorem offers_unit (h : turn.kind ≠ kind) (g : Graph R) :
    (turn.unit g).services.offers kind = g.services.offers kind := by
  let offers (services : Services R) : Bool := services.offers kind
  match turn with
  | .setUp ⟨own, _, _, _⟩ => cases own <;> cases kind <;> first | rfl | exact (h rfl).elim
  | .poll _ (.carParks records) =>
    refine Graph.services_applyRecords offers (fun f services => ?_) records
    cases kind <;> first | rfl | exact (h rfl).elim
  | .poll _ (.stations records) =>
    refine Graph.services_applyRecords offers (fun f services => ?_) records
    cases kind <;> first | rfl | exact (h rfl).elim
  | .poll _ (.roadworks ..) => cases kind <;> first | rfl | exact (h rfl).elim
  | .tearDown ⟨.carPark, _, _, _⟩ =>
    refine (congrArg offers Graph.services_dropRecords).trans ?_
    cases kind <;> first | rfl | exact (h rfl).elim
  | .tearDown ⟨.bikeRental, _, _, _⟩ =>
    refine (congrArg offers Graph.services_dropRecords).trans ?_
    cases kind <;> first | rfl | exact (h rfl).elim
  | .tearDown ⟨.roadworks, _, _, _⟩ => cases kind <;> first | rfl | exact (h rfl).elim

theorem offers_tearDown (updater : Updater) (g : Graph R) :
    ((tearDown updater).unit g).services.offers updater.kind = false := by
  match updater with
  | ⟨.carPark, _, _, _⟩ =>
    exact congrArg (Services.offers · .carPark) Graph.services_dropRecords
  | ⟨.bikeRental, _, _, _⟩ =>
    exact congrArg (Services.offers · .bikeRental) Graph.services_dropRecords
  | ⟨.roadworks, _, _, _⟩ => rfl

theorem version_unit (turn : Turn R) (g : Graph R) : (turn.unit g).version = g.version := by
  have hall : ∀ (ρ : Type) [Place R ρ], g.Disposes ρ fun _ => True := fun _ _ _ _ => trivial
  rcases turn.upkeep (hall (CarPark R)) (hall (Station R)) with h | ⟨services, h⟩
  · exact h.version
  · rw [h]

end Turn

/-! ## All turns -/

namespace Graph

variable {R : Type} [Quantity R] [Geodesy R] {base g next final : Graph R} {turn : Turn R}
  {turns : List (Turn R)} {updaters order : List Updater} {polls : List (Updater × FeedData R)}
  {kind : FeedKind}

/-- A graph is as another one, but for the version and the number of the next edge, and has no
services. -/
structure Restores (g final : Graph R) : Prop where
  vertex? : ∀ v, final.vertex? v = g.vertex? v
  edge? : ∀ e, final.edge? e = g.edge? e
  outgoing : ∀ v, final.outgoing v = g.outgoing v
  incoming : ∀ v, final.incoming v = g.incoming v
  restrictions : final.restrictions = g.restrictions
  streetIndex : final.streetIndex = g.streetIndex
  bounds : final.bounds = g.bounds
  services : final.services = .empty
  nextEdgeId_le : g.nextEdgeId ≤ final.nextEdgeId

theorem version_fed : (g.fed turns).version = g.version + turns.length := by
  induction turns using List.reverseRecOn with
  | nil => rfl
  | append_singleton turns turn ih =>
    rw [fed_concat, List.length_append]
    exact congrArg (· + 1) ((turn.version_unit _).trans ih)

/-- What feeds add is there besides, and is theirs. -/
theorem surrounds_fed (H : base.Evolved) (hservices : base.services = .empty)
    (turns : List (Turn R)) : base.Surrounds (base.fed turns) ∧
      Accounted base (CarPark R) (Station R) (base.fed turns) := by
  induction turns using List.reverseRecOn with
  | nil =>
    obtain ⟨hparks, hstations⟩ := registries_of_empty hservices
    refine ⟨.refl H, ?_, .inl⟩
    rintro v (hregistered | hregistered)
    · exact (not_isRegistered_of_empty hparks hregistered).elim
    · exact (not_isRegistered_of_empty hstations hregistered).elim
  | append_singleton turns turn ih =>
    obtain ⟨hsurrounds, haccounted⟩ := ih
    rw [fed_concat]
    constructor
    · -- What either kind disposes of is free in the graph that was there at the start.
      have hparks := haccounted.disposes hsurrounds.vertex?
      have hstations := haccounted.symm.disposes hsurrounds.vertex?
      rcases turn.upkeep hparks hstations with h | ⟨services, h⟩
      · exact (hsurrounds.upkeep H.regulated h).of_eq _ _
      · rw [h]
        exact hsurrounds.of_eq _ _
    · rcases turn.unit_cases (base.fed turns) with ⟨-, h⟩ | ⟨-, h⟩ | ⟨-, h, -⟩
      · exact haccounted.looksAfter hsurrounds.vertex? h.bumpVersion
      · exact (haccounted.symm.looksAfter hsurrounds.vertex? h.bumpVersion).symm
      · exact haccounted.looksAfter hsurrounds.vertex? h.bumpVersion

theorem offers_fed_of_ne (h : ∀ turn ∈ turns, turn.kind ≠ kind) :
    (g.fed turns).services.offers kind = g.services.offers kind := by
  induction turns using List.reverseRecOn with
  | nil => rfl
  | append_singleton turns turn ih =>
    rw [fed_concat]
    refine (Turn.offers_unit (h turn ?_) _).trans (ih fun turn hturn => h turn ?_)
    · exact List.mem_append_right _ List.mem_cons_self
    · exact List.mem_append_left _ hturn

theorem offers_fed_tearDown
    (h : kind ∈ order.map Updater.kind ∨ g.services.offers kind = false) :
    (g.fed (order.map .tearDown)).services.offers kind = false := by
  induction order using List.reverseRecOn with
  | nil => exact h.resolve_left List.not_mem_nil
  | append_singleton order updater ih =>
    rw [List.map_append, List.map_singleton, fed_concat]
    -- The last feed that is torn down settles its own kind, and leaves the others as they are.
    by_cases hkind : updater.kind = kind
    · exact hkind ▸ Turn.offers_tearDown updater _
    · rw [List.map_append, List.mem_append, List.map_singleton, List.mem_singleton] at h
      have hother : (Turn.tearDown updater : Turn R).kind ≠ kind := hkind
      refine (Turn.offers_unit hother _).trans (ih (h.imp_left fun hmem => ?_))
      exact hmem.resolve_right (Ne.symm hkind)

/-- What has been there is all that is left when no service is left. -/
theorem restores_fed (H : base.Evolved) (hservices : base.services = .empty)
    (h : (base.fed turns).services = .empty) : base.Restores (base.fed turns) := by
  obtain ⟨hsurrounds, haccounted⟩ := surrounds_fed H hservices turns
  obtain ⟨hparks, hstations⟩ := registries_of_empty h
  have hold : ∀ {v vertex}, (base.fed turns).vertex? v = some vertex →
      base.vertex? v = some vertex := by
    intro v vertex hv
    rcases haccounted.cases hv with hbase | hregistered | hregistered
    · exact hbase
    · exact (not_isRegistered_of_empty hparks hregistered).elim
    · exact (not_isRegistered_of_empty hstations hregistered).elim
  have hedges := hsurrounds.edges_eq hold
  refine ⟨fun v => ?_, fun e => ?_, fun v => ?_, fun v => ?_, hsurrounds.restrictions,
    hsurrounds.streetIndex, hsurrounds.bounds, h, hsurrounds.nextEdgeId_le⟩
  · exact Option.ext fun vertex => ⟨hold, hsurrounds.vertex?⟩
  · rw [edge?, Arena.get?, hedges]
    rfl
  · rw [outgoing, Arena.filter, hedges]
    rfl
  · rw [incoming, Arena.filter, hedges]
    rfl

end Graph

/-- The turns of feeds from set-up to tear-down. -/
def Turn.whole {R : Type} (updaters : List Updater) (polls : List (Updater × FeedData R))
    (order : List Updater) : List (Turn R) :=
  updaters.map .setUp ++ polls.map (fun poll => .poll poll.1 poll.2) ++ order.map .tearDown

/-- From any graph without services, whatever feeds there are and whatever they bring in in
whatever order: once all of them are torn down, in any order, the graph is restored, and only the
version and the number of the next edge have gone up. -/
theorem Graph.restores_whole {R : Type} [Quantity R] [Geodesy R] {g : Graph R}
    {updaters order : List Updater} {polls : List (Updater × FeedData R)} (H : g.Evolved)
    (hservices : g.services = .empty)
    (hpolls : ∀ poll ∈ polls, poll.1 ∈ updaters ∧ poll.2.kind = poll.1.kind)
    (horder : order.Perm updaters) :
    g.Restores (g.fed (Turn.whole updaters polls order)) ∧
      (g.fed (Turn.whole updaters polls order)).version =
        g.version + (updaters.length + polls.length + order.length) := by
  refine ⟨restores_fed H hservices (Services.eq_empty_iff.2 fun kind => ?_), ?_⟩
  · rw [Turn.whole, fed_append]
    refine offers_fed_tearDown (Classical.or_iff_not_imp_left.2 fun hkind => ?_)
    -- A kind that is not torn down has no feed at all.
    have hfeed : ∀ updater ∈ updaters, updater.kind ≠ kind := by
      rintro updater hupdater rfl
      exact hkind (List.mem_map_of_mem (horder.mem_iff.2 hupdater))
    refine (offers_fed_of_ne fun turn hturn => ?_).trans ?_
    · rcases List.mem_append.1 hturn with hturn | hturn
      · obtain ⟨updater, hupdater, rfl⟩ := List.mem_map.1 hturn
        exact hfeed updater hupdater
      · obtain ⟨poll, hpoll, rfl⟩ := List.mem_map.1 hturn
        obtain ⟨hupdater, hdata⟩ := hpolls poll hpoll
        exact fun h => hfeed poll.1 hupdater (hdata.symm.trans h)
    · rw [hservices]
      cases kind <;> rfl
  · rw [version_fed]
    simp [Turn.whole, Nat.add_assoc]

/-! ## A corner in town -/

namespace Town

def closureFeed : Updater := ⟨.roadworks, "closures", none, ∅⟩

/-- Two streets that meet, one of them in both directions. -/
def roads : Graph ℚ :=
  .build [.intersection "west" ⟨0, 0⟩, .intersection "east" ⟨1, 0⟩, .intersection "north" ⟨1, 1⟩]
    [(0, 1, .street (.plain 1 1000 .allStreet)), (1, 0, .street (.plain 1 1000 .allStreet)),
      (1, 2, .street (.plain 2 1000 .allStreet))]

def noTurningBack : TurnRestriction := ⟨.noTurn, 0, 1, .allStreet⟩

/-- The streets where one must not turn back. -/
def corner : Graph ℚ :=
  { roads with restrictions := roads.restrictions.insert 0 [noTurningBack] }

theorem evolved_corner : corner.Evolved := by
  have hroads : roads.Built := Graph.built_build (by decide)
  have hcorner : roads.addRestriction noTurningBack = .ok corner := rfl
  exact hroads.evolved.change (.addRestriction hcorner)

/-- A feed of each kind, and an order in which to tear them down. -/
def feeds : List Updater := [parkFeed, stationFeed, closureFeed]

def tornDown : List Updater := [stationFeed, closureFeed, parkFeed]

/-- Car parks and stations come and go, the one at the index of the other, and streets are closed. -/
def polls : List (Updater × FeedData ℚ) :=
  [(parkFeed, .carParks [park "p" 1, park "q" 2]), (stationFeed, .stations [station "s"]),
    (closureFeed, .roadworks [1] []), (parkFeed, .carParks [park "q" 3]),
    (stationFeed, .stations [station "s", station "t"])]

/-- Six vertices are there when the feeds are torn down, and three of them go. -/
theorem restores_corner :
    (corner.fed ((Turn.whole feeds polls tornDown).take 8)).vertexCount = 6 ∧
    corner.vertexCount = 3 ∧
    corner.Restores (corner.fed (Turn.whole feeds polls tornDown)) ∧
    (corner.fed (Turn.whole feeds polls tornDown)).version = 11 := by
  have hpolls : ∀ poll ∈ polls, poll.1 ∈ feeds ∧ poll.2.kind = poll.1.kind := by
    intro poll hpoll
    simp only [polls, List.mem_cons, List.not_mem_nil, or_false] at hpoll
    rcases hpoll with rfl | rfl | rfl | rfl | rfl <;> exact ⟨by simp [feeds], rfl⟩
  have horder : ([stationFeed, closureFeed] ++ [parkFeed]).Perm ([parkFeed] ++ _) :=
    List.perm_append_comm
  obtain ⟨hrestores, hversion⟩ := Graph.restores_whole evolved_corner rfl hpolls horder
  exact ⟨by decide +kernel, by decide, hrestores, hversion⟩

end Town

end TripPlanner
