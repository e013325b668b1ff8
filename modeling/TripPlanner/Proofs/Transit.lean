import TripPlanner.Proofs.Boarding
import TripPlanner.Proofs.Construction
import TripPlanner.Proofs.Evolution
import TripPlanner.Proofs.Legs

/-!
# Transit

Whoever may not ride boards nothing: it takes the mode to board, and having boarded to ride on
(`Context.Moves.isRide`). Getting off and guaranteed changes ask for nothing, so that one is kept
away from them by the network only, where nothing but a ride leads on board (`Graph.OnboardByRide`).
-/

namespace TripPlanner

/-- Getting on a vehicle, or riding on. -/
def EdgeKind.isRide {R : Type} : EdgeKind R → Bool
  | .board _ => true
  | .hop .. => true
  | _ => false

/-- Anything that leads on board, along, or off a vehicle or from one to the next. -/
def EdgeKind.isTransit {R : Type} : EdgeKind R → Bool
  | .alight => true
  | .timedTransfer => true
  | kind => kind.isRide

namespace Graph

variable {R : Type}

/-- The vertex is a position on board a vehicle. -/
def IsOnboard (g : Graph R) (v : VertexIndex) : Prop :=
  (g.vertex? v).map Vertex.kind = some .transitOnboard

instance (g : Graph R) (v : VertexIndex) : Decidable (g.IsOnboard v) :=
  inferInstanceAs (Decidable ((g.vertex? v).map Vertex.kind = some .transitOnboard))

/-- From elsewhere only a ride leads on board. -/
def OnboardByRide (g : Graph R) : Prop :=
  ∀ e edge, g.edge? e = some edge → g.IsOnboard edge.target →
    g.IsOnboard edge.source ∨ edge.kind.isRide = true

/-- Nothing is boarded or ridden on the way. What there is of transit is guaranteed changes, and
getting off where one has not been on board. -/
structure StaysOff (g : Graph R) (itinerary : Itinerary R) : Prop where
  neverAboard : ∀ s ∈ itinerary.states, s.plane.everBoarded = false
  onlyAshore : ∀ e ∈ itinerary.edges, ∀ edge, g.edge? e = some edge →
    edge.kind.isTransit = true → edge.kind = .timedTransfer ∨
      edge.kind = .alight ∧ (g.OnboardByRide → ¬ g.IsOnboard edge.source)

theorem Coherent.not_isOnboard [Quantity R] {g : Graph R} {p : Point R} {v : VertexIndex}
    (H : g.Coherent) (h : g.nearestStreet? p = some v) : ¬ g.IsOnboard v := by
  obtain ⟨⟨q, v⟩, hmem, rfl⟩ := List.mem_map.1 (StreetIndex.mem_of_nearest? h)
  obtain ⟨-, vertex, hvertex, hstreet, -⟩ := H.mem_defined_iff.1 hmem
  intro honboard
  rw [IsOnboard, hvertex, Option.map_some, Option.some.injEq] at honboard
  simp [Vertex.isStreet, honboard] at hstreet

end Graph

namespace Context

variable {R : Type} [Quantity R] {ctx : Context R} {a b s : State R} {id : StateId}
  {e : EdgeIndex} {edge : Edge R} {move : Move R}

theorem Moves.isRide (H : ctx.Moves s e edge move) (hride : edge.kind.isRide = true) :
    ctx.request.modes.transit = true ∨ s.plane.everBoarded = true := by
  cases H with
  | board _ htransit => exact .inl htransit
  | hop _ haboard => exact .inr haboard
  | street hkind | link hkind | parkCar hkind | rentBike hkind | dropOffBike hkind
  | parkBike hkind | alight hkind | transfer hkind | timedTransfer hkind =>
    rw [hkind] at hride
    cases hride

theorem Reachable.everBoarded_eq_false (H : ctx.Reachable s)
    (hmodes : ctx.request.modes.transit = false) : s.plane.everBoarded = false := by
  rw [← Bool.not_eq_true]
  intro hboarded
  rw [H.entitled.board hboarded] at hmodes
  cases hmodes

theorem Reachable.isRide_eq_false (H : ctx.Reachable a)
    (hmodes : ctx.request.modes.transit = false) (hmove : ctx.move? a e edge = some move) :
    edge.kind.isRide = false := by
  rw [← Bool.not_eq_true]
  intro hride
  rcases (move?_eq_some_iff.1 hmove).2.isRide hride with htransit | haboard
  · rw [hmodes] at htransit
    cases htransit
  · rw [H.everBoarded_eq_false hmodes] at haboard
    cases haboard

theorem Reachable.not_isOnboard (H : ctx.Reachable s) (hmodes : ctx.request.modes.transit = false)
    (horigin : ¬ ctx.graph.IsOnboard ctx.origin) (hg : ctx.graph.OnboardByRide) :
    ¬ ctx.graph.IsOnboard s.vertex := by
  induction H with
  | origin => exact horigin
  | step ha hstep ih =>
    obtain ⟨id, edge, move, hedge, hsource, hmove, rfl⟩ := hstep.cases
    intro honboard
    rcases hg _ edge hedge honboard with hon | hride
    · rw [hsource] at hon
      exact ih hon
    · rw [ha.isRide_eq_false hmodes hmove] at hride
      cases hride

theorem Trail.staysOff {store : StateStore R} {itinerary : Itinerary R}
    (H : ctx.Trail store itinerary.states itinerary.edges s)
    (hmodes : ctx.request.modes.transit = false) (horigin : ¬ ctx.graph.IsOnboard ctx.origin) :
    ctx.graph.StaysOff itinerary := by
  refine ⟨fun s hs => (H.reachable_of_mem hs).everBoarded_eq_false hmodes, ?_⟩
  intro e he edge hedge htransit
  obtain ⟨id, a, b, ha, hstep⟩ := H.exists_of_mem_edges he
  obtain ⟨hsource, move, hmove, -⟩ := move_of_mem_successors hstep hedge
  have hride := ha.isRide_eq_false hmodes hmove
  cases hkind : edge.kind with
  | timedTransfer => exact .inl rfl
  | alight =>
    refine .inr ⟨rfl, fun hg => ?_⟩
    rw [hsource]
    exact ha.not_isOnboard hmodes horigin hg
  | _ =>
    rw [hkind] at hride htransit
    exact absurd (htransit.symm.trans hride) (by decide)

end Context

/-- Without the mode nobody rides, and nobody gets off a vehicle where only rides lead on board. -/
theorem Graph.staysOff_of_findPaths {R : Type} [Quantity R] [Geodesy R] {g : Graph R}
    {request : Request R} {paths : List (Itinerary R)} (hg : g.Evolved)
    (hmodes : request.modes.transit = false) (h : g.findPaths request = .ok paths) :
    ∀ itinerary ∈ paths, g.StaysOff itinerary := by
  intro itinerary hmem
  obtain ⟨ctx, hctx, hpaths⟩ := exists_context_of_findPaths h
  obtain ⟨-, start, goal, -, -, origin, target, horigin, -, rfl⟩ := Context.of_eq_ok_iff.1 hctx
  obtain ⟨-, s, htrail, -⟩ := Context.trail_of_findPaths hpaths hmem
  obtain ⟨triangle, hrequest⟩ := Context.request_of hctx
  refine htrail.staysOff ?_ (hg.coherent.not_isOnboard horigin)
  rw [hrequest, hmodes]

/-! ## A tram to work -/

namespace Tram

/-- A street to work, and a tram along it. -/
def town : Graph ℚ :=
  .build
    [.intersection "home" ⟨0, 0⟩, .intersection "work" ⟨1, 0⟩,
      ⟨"west", ⟨0, 0⟩, .transitStop⟩, ⟨"east", ⟨1, 0⟩, .transitStop⟩,
      ⟨"west on board", ⟨0, 0⟩, .transitOnboard⟩, ⟨"east on board", ⟨1, 0⟩, .transitOnboard⟩]
    [(0, 1, .street (.plain 1 1000 .allStreet)), (0, 2, .link 10), (2, 4, .board 60),
      (4, 5, .hop 60 1000), (5, 3, .alight), (3, 1, .link 10)]

/-- Stops beside home and work with a guaranteed change from one to the other. -/
def interchange : Graph ℚ :=
  .build
    [.intersection "home" ⟨0, 0⟩, .intersection "work" ⟨1, 0⟩,
      ⟨"west", ⟨0, 0⟩, .transitStop⟩, ⟨"east", ⟨1, 0⟩, .transitStop⟩]
    [(0, 2, .link 10), (2, 3, .timedTransfer), (3, 1, .alight)]

/-- One walks to work beside the tram. -/
theorem staysOff_town : town.Evolved ∧ town.OnboardByRide ∧
    (Corners.onFoot 0 1).modes.transit = false ∧ ∃ paths,
      town.findPaths (Corners.onFoot 0 1) = .ok paths ∧ paths.map Itinerary.edges = [[0]] ∧
        ∀ itinerary ∈ paths, town.StaysOff itinerary := by
  have hg : town.Evolved := (Graph.built_build (by decide)).evolved
  have honboard : town.OnboardByRide := by
    intro e edge hedge
    have hall : ∀ p ∈ town.edges.entries, town.IsOnboard p.2.target →
        town.IsOnboard p.2.source ∨ p.2.kind.isRide = true := by decide
    exact hall (e, edge) (Graph.mem_entries_iff.2 hedge)
  have hanswer : (town.findPaths (Corners.onFoot 0 1)).toOption.map (List.map Itinerary.edges) =
      some [[0]] := by decide +kernel
  obtain ⟨paths, h, hedges⟩ := exists_ok_of_toOption hanswer
  exact ⟨hg, honboard, rfl, paths, h, hedges, Graph.staysOff_of_findPaths hg rfl h⟩

/-- Between stops one changes, and gets off, without ever having boarded. -/
theorem not_ashore_interchange : (Corners.onFoot 0 1).modes.transit = false ∧ ∃ paths,
    interchange.findPaths (Corners.onFoot 0 1) = .ok paths ∧
      ∃ itinerary ∈ paths, itinerary.edges = [0, 1, 2] ∧
        (interchange.edge? 1).map Edge.kind = some .timedTransfer ∧
          (interchange.edge? 2).map Edge.kind = some .alight := by
  have hanswer : (interchange.findPaths (Corners.onFoot 0 1)).toOption.map
      (List.map Itinerary.edges) = some [[0, 1, 2]] := by decide +kernel
  obtain ⟨paths, h, hedges⟩ := exists_ok_of_toOption hanswer
  have hpaths : [0, 1, 2] ∈ paths.map Itinerary.edges := by
    rw [hedges]
    exact List.mem_singleton_self _
  obtain ⟨itinerary, hmem, hitinerary⟩ := List.mem_map.1 hpaths
  exact ⟨rfl, paths, h, itinerary, hmem, hitinerary, by decide, by decide⟩

end Tram

end TripPlanner
