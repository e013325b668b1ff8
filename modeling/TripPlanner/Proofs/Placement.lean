import TripPlanner.Proofs.Exact

/-!
# Requests on graphs

When a request can be placed on a graph, and what comes of it (`Context.of_eq_ok_iff`). The number
of steps that it grants has no part in that.
-/

namespace TripPlanner

section
variable {R : Type} [Quantity R] {request : Request R} {g : Graph R} {ctx : Context R}

theorem Request.validate_eq_ok_iff : request.validate = .ok () ↔
    request.origin.isSome ∧ request.destination.isSome ∧ request.modes.isEmpty = false ∧
      ¬ request.walkSpeed ≤ 0 ∧ ¬ request.bikeSpeed ≤ 0 ∧ request.numItineraries ≠ 0 := by
  unfold Request.validate
  split_ifs with hends hmodes hspeeds hcount
  · simp only [Bool.or_eq_true, Option.isNone_iff_eq_none] at hends
    rcases hends with h | h <;> simp [h]
  · simp [hmodes]
  · refine iff_of_false (by simp) ?_
    rintro ⟨-, -, -, hwalk, hbike, -⟩
    exact hspeeds.elim hwalk hbike
  · simp [hcount]
  · simp only [Bool.or_eq_true, Option.isNone_iff_eq_none, not_or, ← ne_eq,
      Option.ne_none_iff_isSome] at hends
    simp only [not_or] at hspeeds
    simp [hends, hspeeds, hmodes, hcount]

instance : Decidable (request.validate = .ok ()) :=
  decidable_of_iff _ Request.validate_eq_ok_iff.symm

namespace Context

/-- A request on a graph, the ends of the trip known. -/
def placed (request : Request R) (g : Graph R) (origin target : VertexIndex)
    (start goal : Point R) : Context R :=
  ⟨request, g, origin, target, start, goal, highestSpeed request g, lowestWeight request g⟩

/-- A request is placed on a graph if it is valid and both of its ends have a nearest street. -/
theorem of_eq_ok_iff : Context.of request g = .ok ctx ↔ request.validate = .ok () ∧
    ∃ start goal, request.origin = some start ∧ request.destination = some goal ∧
      ∃ origin target, g.nearestStreet? start = some origin ∧ g.nearestStreet? goal = some target ∧
        ctx = placed (prepare request) g origin target start goal := by
  have horigin : (prepare request).origin = request.origin := by unfold prepare; split <;> rfl
  have hgoal : (prepare request).destination = request.destination := by
    unfold prepare; split <;> rfl
  cases hvalid : request.validate with
  | error cause => simp [Context.of, hvalid, bind, Except.bind]
  | ok =>
    simp only [Context.of, hvalid, bind, Except.bind, horigin, hgoal]
    cases request.origin with
    | none => simp
    | some start =>
      cases request.destination with
      | none => simp
      | some goal =>
        cases hstart : g.nearestStreet? start with
        | none => simp [hstart]
        | some origin =>
          cases htarget : g.nearestStreet? goal with
          | none => simp [hstart, htarget]
          | some target => simp [hstart, htarget, placed, eq_comm]

/-- A request that does not weigh by a triangle is placed as it is. -/
theorem of_placed {origin target : VertexIndex} {start goal : Point R}
    (hvalid : request.validate = .ok ()) (hstart : request.origin = some start)
    (hgoal : request.destination = some goal) (horigin : g.nearestStreet? start = some origin)
    (htarget : g.nearestStreet? goal = some target) (hplain : request.optimize ≠ .triangle) :
    Context.of request g = .ok (placed request g origin target start goal) := by
  refine of_eq_ok_iff.2
    ⟨hvalid, start, goal, hstart, hgoal, origin, target, horigin, htarget, ?_⟩
  rw [prepare, if_neg hplain]

theorem graph_of (h : Context.of request g = .ok ctx) : ctx.graph = g := by
  obtain ⟨-, _, _, -, -, _, _, -, -, rfl⟩ := of_eq_ok_iff.1 h
  rfl

/-- Placing a request leaves it as it is, but for the triangle. -/
theorem request_of (h : Context.of request g = .ok ctx) :
    ∃ triangle, ctx.request = { request with triangle := triangle } := by
  obtain ⟨-, _, _, -, -, _, _, -, -, rfl⟩ := of_eq_ok_iff.1 h
  unfold placed prepare
  split
  · exact ⟨_, rfl⟩
  · exact ⟨request.triangle, rfl⟩

end Context

theorem Graph.findPaths_of [Geodesy R] (h : Context.of request g = .ok ctx) :
    g.findPaths request = ctx.findPaths := by
  rw [findPaths, h]
  rfl

/-- A request that is answered has been placed on the graph. -/
theorem Graph.exists_context_of_findPaths [Geodesy R] {paths : List (Itinerary R)}
    (h : g.findPaths request = .ok paths) :
    ∃ ctx, Context.of request g = .ok ctx ∧ ctx.findPaths = .ok paths := by
  cases hctx : Context.of request g with
  | error cause =>
    rw [findPaths, hctx] at h
    cases h
  | ok ctx =>
    rw [findPaths_of hctx] at h
    exact ⟨ctx, rfl, h⟩

end

theorem exists_ok_of_toOption {ε α β : Type} {result : Except ε α} {f : α → β} {b : β}
    (h : result.toOption.map f = some b) : ∃ a, result = .ok a ∧ f a = b := by
  cases result with
  | error cause => cases h
  | ok a => exact ⟨a, rfl, Option.some.inj h⟩

/-- The network of the given vertices, numbered from zero, and of the given edges. -/
def Graph.build {R : Type} [Quantity R] (vertices : List (Vertex R))
    (edges : List (VertexIndex × VertexIndex × EdgeKind R)) : Graph R :=
  edges.foldl (fun g (source, target, kind) => (g.connect source target kind).2)
    (vertices.foldl (fun g vertex => (g.addVertex vertex).2) .empty)

/-! ## Three corners in a row -/

namespace Corners

/-- Two streets, and a link along the first one. Cars must not go from the first street onto the
second. -/
def graph : Graph ℚ :=
  { Graph.build
      [.intersection "home" ⟨0, 0⟩, .intersection "corner" ⟨1, 0⟩, .intersection "work" ⟨2, 0⟩]
      [(0, 1, .street (.plain 1 1000 .allStreet)), (1, 2, .street (.plain 2 1000 .allStreet)),
        (0, 1, .link 900)] with
    restrictions := .ofList [(0, [⟨.noTurn, 0, 1, .ofList [.car]⟩])] }

/-- A walk along the row. -/
def onFoot (start goal : ℚ) : Request ℚ :=
  { Request.default with origin := some ⟨start, 0⟩, destination := some ⟨goal, 0⟩ }

/-- The walk placed on the network. -/
def walk (start goal : ℚ) (origin target : VertexIndex) : Context ℚ where
  request := onFoot start goal
  graph := graph
  origin := origin
  target := target
  start := ⟨start, 0⟩
  goal := ⟨goal, 0⟩
  maxSpeed := Context.highestSpeed (onFoot start goal) graph
  minWeightPerSecond := Context.lowestWeight (onFoot start goal) graph

/-- From the first corner to the last. -/
def there : Context ℚ := walk 0 2 0 2

/-- From the last corner to the first, against the streets. -/
def back : Context ℚ := walk 2 0 2 0

theorem of_onFoot {start goal : ℚ} {origin target : VertexIndex}
    (horigin : graph.nearestStreet? ⟨start, 0⟩ = some origin)
    (htarget : graph.nearestStreet? ⟨goal, 0⟩ = some target) :
    Context.of (onFoot start goal) graph = .ok (walk start goal origin target) := by
  have hspeeds : ¬ (Request.default : Request ℚ).walkSpeed ≤ 0 ∧
      ¬ (Request.default : Request ℚ).bikeSpeed ≤ 0 := by decide +kernel
  have hvalid : (onFoot start goal).validate = .ok () :=
    Request.validate_eq_ok_iff.2 ⟨rfl, rfl, rfl, hspeeds.1, hspeeds.2, Nat.succ_ne_zero 2⟩
  exact Context.of_eq_ok_iff.2 ⟨hvalid, _, _, rfl, rfl, _, _, horigin, htarget, rfl⟩

theorem of_there : Context.of (onFoot 0 2) graph = .ok there :=
  of_onFoot (by decide +kernel) (by decide +kernel)

theorem of_back : Context.of (onFoot 2 0) graph = .ok back :=
  of_onFoot (by decide +kernel) (by decide +kernel)

end Corners

end TripPlanner
