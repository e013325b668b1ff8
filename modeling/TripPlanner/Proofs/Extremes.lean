import TripPlanner.Proofs.Estimate
import TripPlanner.Proofs.Mutations

/-!
# Extremes

Whatever a graph goes through, the bounds that it keeps of its edges allow for each edge that is
there, and no second of cycling weighs less than the least weight that a request to cycle is placed
with (`Graph.Bounded.allowsForEdges`). The bounds are no wider than edges have made them: each one
is that of the empty graph or that of an edge that was there at some time (`EdgeBounds.Attained`).
-/

namespace TripPlanner

variable {R : Type} [Field R] [LinearOrder R] [IsStrictOrderedRing R] [FloorRing R]

/-! ## Bounds that are attained -/

namespace EdgeBounds

variable {bounds : EdgeBounds R} {among wider : EdgeKind R → Prop} {kind : EdgeKind R}

/-- Each bound is the one before any edge, or that of an edge among some. -/
structure Attained (bounds : EdgeBounds R) (among : EdgeKind R → Prop) : Prop where
  car : bounds.maxCarSpeed = defaultCarSpeed ∨
    ∃ s, among (.street s) ∧ s.permits.car = true ∧ bounds.maxCarSpeed = s.carSpeed
  transit : bounds.maxTransitSpeed = 0 ∨
    ∃ duration length, among (.hop duration length) ∧ 0 < duration ∧
      bounds.maxTransitSpeed = length / duration
  safety : bounds.minBicycleSafety = 1 ∨
    ∃ s, among (.street s) ∧ s.permits.bicycle = true ∧ bounds.minBicycleSafety = s.bicycleSafety

theorem attained_initial : (initial : EdgeBounds R).Attained among :=
  ⟨.inl rfl, .inl rfl, .inl Int.cast_one⟩

theorem Attained.mono (H : bounds.Attained among) (h : ∀ kind, among kind → wider kind) :
    bounds.Attained wider where
  car := H.car.imp_right fun ⟨s, hs, hcar⟩ => ⟨s, h _ hs, hcar⟩
  transit := H.transit.imp_right fun ⟨duration, length, hs, hhop⟩ =>
    ⟨duration, length, h _ hs, hhop⟩
  safety := H.safety.imp_right fun ⟨s, hs, hbicycle⟩ => ⟨s, h _ hs, hbicycle⟩

/-- An edge that widens a bound attains it. -/
theorem Attained.extend (H : bounds.Attained among) (hkind : among kind) :
    (bounds.extend kind).Attained among := by
  cases kind with
  | street s =>
    refine ⟨?_, H.transit, ?_⟩
    · by_cases hcar : s.permits.car = true
      · simp only [EdgeBounds.extend, hcar, if_true]
        rcases max_choice bounds.maxCarSpeed s.carSpeed with hmax | hmax
        · rw [hmax]
          exact H.car
        · exact .inr ⟨s, hkind, hcar, hmax⟩
      · simp only [EdgeBounds.extend, hcar]
        exact H.car
    · by_cases hbicycle : s.permits.bicycle = true
      · simp only [EdgeBounds.extend, hbicycle, if_true]
        rcases min_choice bounds.minBicycleSafety s.bicycleSafety with hmin | hmin
        · rw [hmin]
          exact H.safety
        · exact .inr ⟨s, hkind, hbicycle, hmin⟩
      · simp only [EdgeBounds.extend, hbicycle]
        exact H.safety
  | hop duration length =>
    by_cases hduration : 0 < duration
    · refine ⟨?_, ?_, ?_⟩ <;> simp only [EdgeBounds.extend, if_pos hduration]
      · exact H.car
      · rcases max_choice bounds.maxTransitSpeed (length / duration) with hmax | hmax
        · rw [hmax]
          exact H.transit
        · exact .inr ⟨duration, length, hkind, hduration, hmax⟩
      · exact H.safety
    · simp only [EdgeBounds.extend, if_neg hduration]
      exact H
  | _ => exact H

end EdgeBounds

/-! ## Edges that are there -/

namespace Graph

variable {g next : Graph R}

/-- The bounds allow for each edge that is there, and so does the least weight of a second for
whoever may cycle. -/
structure AllowsForEdges (g : Graph R) : Prop where
  car : ∀ {e street}, g.street? e = some street → street.permits.car = true →
    street.carSpeed ≤ g.bounds.maxCarSpeed
  transit : ∀ {e edge duration length}, g.edge? e = some edge → edge.kind = .hop duration length →
    0 < duration → edge.distance / duration ≤ g.bounds.maxTransitSpeed
  safety : ∀ {e street}, g.street? e = some street → street.permits.bicycle = true →
    g.bounds.minBicycleSafety ≤ street.bicycleSafety
  weight : ∀ {request : Request R}, (request.modes.bicycle || request.allowRental) = true →
    request.triangle.IsNonneg → ∀ {e street}, g.street? e = some street →
      street.permits.bicycle = true → 0 ≤ street.bicycleSafety →
        Context.lowestWeight request g ≤
          cyclingWeight request.optimize request.triangle street.bicycleSafety
  placed : ∀ {request : Request R} {ctx}, Context.of request g = .ok ctx →
    (request.modes.bicycle || request.allowRental) = true → request.triangle.IsNonneg →
      ∀ {e street}, g.street? e = some street → street.permits.bicycle = true →
        0 ≤ street.bicycleSafety → ctx.minWeightPerSecond ≤
          cyclingWeight ctx.request.optimize ctx.request.triangle street.bicycleSafety

theorem Bounded.covers_street (H : g.Bounded) {e : EdgeIndex} {street : Street R}
    (he : g.street? e = some street) : g.bounds.Covers (.street street) := by
  obtain ⟨edge, hedge, hkind⟩ := street?_eq_some_iff.1 he
  exact hkind ▸ H.covers hedge

theorem Bounded.allowsForEdges (H : g.Bounded) : g.AllowsForEdges where
  car {e street} he := (H.covers_street he).1
  transit {e edge duration length} he hkind hduration := by
    have hcovers : g.bounds.Covers (.hop duration length) := hkind ▸ H.covers he
    rw [Edge.distance, hkind]
    exact hcovers hduration
  safety {e street} he := (H.covers_street he).2
  weight {request} hcycles hshares {e street} he hbicycle hsafety :=
    Context.lowestWeight_le_cyclingWeight hcycles hshares ((H.covers_street he).2 hbicycle) hsafety
  placed {request ctx} hctx hcycles hshares {e street} he hbicycle hsafety := by
    obtain ⟨-, _, _, -, -, _, _, -, -, rfl⟩ := Context.of_eq_ok_iff.1 hctx
    have hprepared : ((Context.prepare request).modes.bicycle ||
        (Context.prepare request).allowRental) = true := by
      unfold Context.prepare
      split <;> exact hcycles
    exact Context.lowestWeight_le_cyclingWeight hprepared (Request.isNonneg_prepare hshares)
      ((H.covers_street he).2 hbicycle) hsafety

/-! ## Edges that have been there -/

theorem Upkeep.bounds {own : VertexIndex → Prop} (h : Upkeep own g next) :
    next.bounds = g.bounds := by
  induction h with
  | refl => rfl
  | tail _ h ih =>
    rw [← ih]
    cases h with
    | addVertex | removeVertex | modifyServices => rfl
    | connect _ haside => exact haside.2 _

/-- Bounds are widened by an edge that comes, and by nothing else. -/
theorem Mutates.bounds (h : g.Mutates next) : next.bounds = g.bounds ∨
    ∃ e edge, next.edge? e = some edge ∧ next.bounds = g.bounds.extend edge.kind := by
  cases h with
  | addVertex | removeVertex | services => exact .inl rfl
  | @connect source target kind =>
    refine .inr ⟨g.edges.next, ⟨g.nextEdgeId, source, target, kind⟩, ?_, rfl⟩
    rw [edge?_connect, if_pos rfl]
  | addRestriction h =>
    obtain ⟨restrictions, rfl⟩ := eq_of_addRestriction h
    exact .inl rfl
  | upkeep h => exact .inl h.bounds

variable [Geodesy R]

/-- An edge of the kind was there after some of the mutations. -/
def HasHad (ms : List (Mutation R)) (kind : EdgeKind R) : Prop :=
  ∃ first, first <+: ms ∧ ∃ e edge, (made first).edge? e = some edge ∧ edge.kind = kind

theorem HasHad.concat {ms : List (Mutation R)} {kind : EdgeKind R} (h : HasHad ms kind)
    (m : Mutation R) : HasHad (ms ++ [m]) kind := by
  obtain ⟨first, hfirst, hedge⟩ := h
  exact ⟨first, hfirst.trans (List.prefix_append ms [m]), hedge⟩

theorem attained_made (ms : List (Mutation R)) : (made ms).bounds.Attained (HasHad ms) := by
  induction ms using List.reverseRecOn with
  | nil => exact EdgeBounds.attained_initial
  | append_singleton ms m ih =>
    -- What was there before the last mutation counts, even if that takes it away.
    have hbefore : (made ms).bounds.Attained (HasHad (ms ++ [m])) :=
      ih.mono fun _ h => h.concat m
    have hmutates : (made ms).Mutates (made (ms ++ [m])) := by
      rw [made_concat]
      exact mutates_run (made ms) m
    rcases hmutates.bounds with h | ⟨e, edge, hedge, h⟩
    · rw [h]
      exact hbefore
    · rw [h]
      exact hbefore.extend ⟨ms ++ [m], List.prefix_rfl, e, edge, hedge, rfl⟩

/-- Whatever a graph goes through, its bounds allow for the edges that are there, the lowest weight
of a request to cycle is no higher than that of any street, and nothing but edges has moved the
bounds. -/
theorem allowsForEdges_made (ms : List (Mutation R)) :
    (made ms).AllowsForEdges ∧ (made ms).bounds.Attained (HasHad ms) :=
  ⟨(evolved_made ms).built.bounded.allowsForEdges, attained_made ms⟩

end Graph

/-! ## A motorway that is taken down -/

namespace Motorway

def parkFeed : Updater := ⟨.carPark, "parking", none, ∅⟩

def motorway : Street ℚ :=
  ((Street.plain 1 2000 (.ofList [.car])).withCarSpeed 36).withBicycleSafety (1 / 100)

def greenway : Street ℚ := (Street.plain 2 1000 .allStreet).withBicycleSafety (1 / 20)

def lane : Street ℚ := (Street.plain 3 1000 .allStreet).withBicycleSafety (1 / 10 + 1 / 100)

/-- Between two towns there are a greenway, a lane and a tram. A faster tram to nowhere is refused,
a motorway goes with the third town, and a car park comes. -/
def mutations : List (Mutation ℚ) :=
  [.addVertex (.intersection "west" ⟨0, 0⟩), .addVertex (.intersection "east" ⟨1000, 0⟩),
    .addVertex (.intersection "south" ⟨0, 2000⟩), .addEdge 0 2 (.street motorway),
    .addEdge 0 1 (.street greenway), .addEdge 1 0 (.street lane), .addEdge 0 1 (.hop 100 5000),
    .addEdge 0 7 (.hop 1 5000), .removeVertex 2,
    .turn (.poll parkFeed (.carParks [⟨"p", "park", ⟨1, 1⟩, 5, 10, true⟩]))]

def graph : Graph ℚ := .made mutations

/-- A ride by someone who likes greenways, on the network of what is left. -/
def request : Request ℚ :=
  { Request.default with
    origin := some ⟨0, 0⟩
    destination := some ⟨1000, 0⟩
    modes := .ofList [.bicycle]
    optimize := .greenways }

def ride : Context ℚ := .placed request graph 0 1 ⟨0, 0⟩ ⟨1000, 0⟩

theorem of_request : Context.of request graph = .ok ride :=
  Context.of_placed (by decide +kernel) rfl rfl (by decide +kernel) (by decide +kernel) (by decide)

/-- The motorway is gone and its speed still counts, but its safety never did. A second on the
greenway has the least weight, also below that on the lane, which is just no greenway. -/
theorem allowsForEdges_motorway : graph.street? 0 = none ∧ graph.bounds = ⟨36, 50, 1 / 20⟩ ∧
    greenway.carSpeed ≤ graph.bounds.maxCarSpeed ∧
    graph.bounds.minBicycleSafety ≤ lane.bicycleSafety ∧
    (∃ edge, graph.edge? 3 = some edge ∧ edge.distance / 100 ≤ graph.bounds.maxTransitSpeed) ∧
    ride.minWeightPerSecond = 1 / 20 * (66 / 100) ∧
    Context.lowestWeight request graph ≤
      cyclingWeight request.optimize request.triangle lane.bicycleSafety ∧
    ride.minWeightPerSecond ≤
      cyclingWeight ride.request.optimize ride.request.triangle lane.bicycleSafety ∧
    ∃ duration length, Graph.HasHad mutations (.hop duration length) ∧ 0 < duration ∧
      50 = length / duration := by
  obtain ⟨hallows, hattained⟩ := Graph.allowsForEdges_made mutations
  have H : graph.AllowsForEdges := hallows
  have hrides : graph.bounds.Attained (Graph.HasHad mutations) := hattained
  have hbounds : graph.bounds = ⟨36, 50, 1 / 20⟩ := by decide +kernel
  have hgreenway : graph.street? 1 = some greenway := by decide +kernel
  have hlane : graph.street? 2 = some lane := by decide +kernel
  have htram : graph.edge? 3 = some ⟨3, 0, 1, .hop 100 5000⟩ := by decide +kernel
  have hpermits : lane.permits.bicycle = true := by decide
  have hsafety : 0 ≤ lane.bicycleSafety := by decide +kernel
  have hcycles : (request.modes.bicycle || request.allowRental) = true := by decide
  have hshares : request.triangle.IsNonneg := Triangle.isNonneg_equal
  rw [hbounds] at hrides
  exact ⟨by decide +kernel, hbounds, H.car hgreenway (by decide), H.safety hlane hpermits,
    ⟨_, htram, H.transit htram rfl (by norm_num)⟩, by decide +kernel,
    H.weight hcycles hshares hlane hpermits hsafety,
    H.placed of_request hcycles hshares hlane hpermits hsafety,
    hrides.transit.resolve_left (by decide)⟩

end Motorway

end TripPlanner
