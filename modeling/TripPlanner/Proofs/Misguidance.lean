import TripPlanner.Proofs.Guidance

/-!
# Misguidance

Where the estimate changes the best weight (`Graph.misguides_each`). On each of the three networks
one proviso of `Graph.agreeOnBest_of_heuristics` fails and the others hold: a tie is broken in
favour of the way that turns off later, a ride takes no time and so does not count for the highest
speed, or a boarding after a guaranteed change is preferred to a cheaper one as long as it is there.
-/

namespace TripPlanner

section
variable {R : Type} [Field R] [LinearOrder R] [IsStrictOrderedRing R] [FloorRing R] [Geodesy R]

/-- What the first state that is found weighs. -/
def Context.bestWeight? (ctx : Context R) : Option R :=
  ctx.search.1.found.head?.bind fun i => (ctx.search.1.store.get? i).map State.weight

theorem AgreeOnBest.bestWeight?_eq {ctx ctx' : Context R}
    (H : AgreeOnBest ctx.findPaths ctx'.findPaths) : ctx.bestWeight? = ctx'.bestWeight? := by
  have hbest : ∀ {ctx : Context R} {first rest}, ctx.findPaths = .ok (first :: rest) →
      ctx.bestWeight? = some first.weight := by
    intro ctx first rest hpaths
    rcases ctx.findPaths_cases with ⟨-, hnone⟩ | ⟨i, found, s, _, _, hi, hs, -, hpaths', hweight⟩
    · cases hnone.symm.trans hpaths
    · cases hpaths.symm.trans hpaths'
      simp [Context.bestWeight?, hi, hs, hweight]
  have hnone : ∀ {ctx : Context R}, ctx.findPaths = .error .pathNotFound →
      ctx.bestWeight? = none := by
    intro ctx hpaths
    simp [Context.bestWeight?, Context.findPaths_eq_pathNotFound_iff.1 hpaths]
  rcases H with ⟨hpaths, hpaths'⟩ | ⟨first, rest, first', rest', hpaths, hpaths', hweight⟩
  · rw [hnone hpaths, hnone hpaths']
  · rw [hbest hpaths, hbest hpaths', hweight]

/-- Every edge covers the ground between its ends, nothing has negative costs, and two searches by
weight that are not cut short do not agree on the best one. -/
structure Graph.Misguides (g : Graph R) (request : Request R) (ctx : Context R) : Prop where
  placed : Context.of request g = .ok ctx
  built : g.Built
  ground : g.CoversGround
  graphMeasured : g.IsMeasured
  requestMeasured : request.IsMeasured
  walkSpeed : request.walkSpeed ≤ 40
  bikeSpeed : request.bikeSpeed ≤ 40
  rule : request.dominance = .minimumWeight
  ended : ∀ h, (ctx.guided h).search.2 ≠ .outOfSteps
  differ : ¬ AgreeOnBest (g.findPaths { request with heuristic := .trivial })
    (g.findPaths { request with heuristic := .euclidean })

/-- What has to be computed for that. -/
theorem Graph.misguides_of {g : Graph R} {request : Request R} {ctx : Context R}
    (hctx : Context.of request g = .ok ctx) (hbuilt : g.Built)
    (hg : g.CoversGround ∧ g.IsMeasured) (hrequest : request.IsMeasured)
    (hspeeds : request.walkSpeed ≤ 40 ∧ request.bikeSpeed ≤ 40)
    (hrule : request.dominance = .minimumWeight)
    (hend : (ctx.guided .trivial).search.2 ≠ .outOfSteps ∧
      (ctx.guided .euclidean).search.2 ≠ .outOfSteps)
    (hbest : (ctx.guided .trivial).bestWeight? ≠ (ctx.guided .euclidean).bestWeight?) :
    g.Misguides request ctx where
  placed := hctx
  built := hbuilt
  ground := hg.1
  graphMeasured := hg.2
  requestMeasured := hrequest
  walkSpeed := hspeeds.1
  bikeSpeed := hspeeds.2
  rule := hrule
  ended h := by
    cases h with
    | trivial => exact hend.1
    | euclidean => exact hend.2
  differ h := by
    rw [Graph.findPaths_of (Context.of_guided hctx), Graph.findPaths_of (Context.of_guided hctx)]
      at h
    exact hbest h.bestWeight?_eq

end

/-! ## A tie -/

namespace DeadHeat

/-- Two ways that meet after thirty metres. Who came by the northern one has to turn for work. -/
def graph : Graph ℚ :=
  .build
    [.intersection "home" ⟨0, 0⟩, .intersection "north" ⟨8, 0⟩, .intersection "south" ⟨0, 10⟩,
      .intersection "square" ⟨9, 0⟩, .intersection "work" ⟨10, 0⟩]
    [(0, 1, .street ((Street.plain 1 20 .allStreet).withAngles 90 90)),
      (0, 2, .street (.plain 2 10 .allStreet)),
      (1, 3, .street ((Street.plain 1 10 .allStreet).withAngles 90 90)),
      (2, 3, .street (.plain 2 20 .allStreet)), (3, 4, .street (.plain 3 1 .allStreet))]

/-- A walk to work, at a metre a second. -/
def request : Request ℚ :=
  { Request.default with
    origin := some ⟨0, 0⟩
    destination := some ⟨10, 0⟩
    modes := .ofList [.walk]
    walkSpeed := 1
    walkReluctance := 1
    dominance := .minimumWeight }

/-- The walk placed on the network. -/
def walk : Context ℚ := .placed request graph 0 4 ⟨0, 0⟩ ⟨10, 0⟩

/-- The estimate prefers the way that is closer to work in the middle. -/
theorem misguides : graph.Misguides request walk ∧ graph.Spans ∧
    ¬ graph.BoardsAfterChange := by
  have hctx : Context.of request graph = .ok walk := Context.of_placed (by decide) rfl rfl
    (by decide +kernel) (by decide +kernel) (by decide)
  have hmisguides : graph.Misguides request walk :=
    Graph.misguides_of hctx (Graph.built_build (by decide)) (by decide +kernel)
      (by decide +kernel) (by decide) rfl (by decide +kernel) (by decide +kernel)
  have huntimed : graph.IsUntimed := by decide
  exact ⟨hmisguides, by decide +kernel, huntimed.not_boardsAfterChange⟩

end DeadHeat

/-! ## A ride that takes no time -/

namespace Shuttle

/-- A street, and a ride along it that takes no time. -/
def graph : Graph ℚ :=
  .build
    [.intersection "home" ⟨0, 0⟩, .intersection "work" ⟨6200, 0⟩, ⟨"a", ⟨0, 0⟩, .transitStop⟩,
      ⟨"tram at a", ⟨0, 0⟩, .transitOnboard⟩, ⟨"tram at b", ⟨6200, 0⟩, .transitOnboard⟩]
    [(0, 1, .street (.plain 1 6200 .allStreet)), (0, 2, .link 10), (2, 3, .board 0),
      (3, 4, .hop 0 6200), (4, 1, .alight)]

/-- A trip to work, on foot or by tram. -/
def request : Request ℚ :=
  { Request.default with
    origin := some ⟨0, 0⟩
    destination := some ⟨6200, 0⟩
    modes := .ofList [.walk, .transit]
    walkSpeed := 10
    walkReluctance := 1
    dominance := .minimumWeight }

/-- The trip placed on the network. -/
def trip : Context ℚ := .placed request graph 0 1 ⟨0, 0⟩ ⟨6200, 0⟩

/-- The estimate takes the tram for too slow. -/
theorem misguides : graph.Misguides request trip ∧ trip.TiesAgree ∧
    ¬ graph.BoardsAfterChange := by
  have hctx : Context.of request graph = .ok trip := Context.of_placed (by decide) rfl rfl
    (by decide +kernel) (by decide +kernel) (by decide)
  have hmisguides : graph.Misguides request trip :=
    Graph.misguides_of hctx (Graph.built_build (by decide)) (by decide +kernel)
      (by decide +kernel) (by decide) rfl (by decide +kernel) (by decide +kernel)
  have hties : trip.TiesAgree :=
    Context.Encloses.tiesAgree (trip.within 6) (by decide +kernel) (by decide +kernel)
  have huntimed : graph.IsUntimed := by decide
  exact ⟨hmisguides, hties, huntimed.not_boardsAfterChange⟩

end Shuttle

/-! ## A boarding that is preferred -/

namespace Connection

/-- A tram can be boarded after a guaranteed change, without one, and at home. -/
def graph : Graph ℚ :=
  .build
    [.intersection "home" ⟨0, 0⟩, .intersection "work" ⟨20000, 0⟩,
      ⟨"a", ⟨20000, 0⟩, .transitStop⟩, ⟨"b", ⟨20000, 0⟩, .transitStop⟩,
      ⟨"c", ⟨20000, 0⟩, .transitStop⟩, ⟨"tram", ⟨20000, 0⟩, .transitOnboard⟩,
      ⟨"tram at home", ⟨0, 0⟩, .transitOnboard⟩]
    [(0, 2, .link 20000), (2, 3, .timedTransfer), (3, 5, .board 3000), (0, 4, .link 40000),
      (4, 5, .board 0), (0, 6, .board 0), (6, 5, .hop 1500 20000), (5, 1, .alight)]

/-- A trip to work, on foot and by tram. -/
def request : Request ℚ :=
  { Shuttle.request with
    destination := some ⟨20000, 0⟩
    walkSpeed := 40 }

/-- The trip placed on the network. -/
def trip : Context ℚ := .placed request graph 0 1 ⟨0, 0⟩ ⟨20000, 0⟩

/-- The boarding after the change keeps out the cheapest one if that comes later than the other one,
which beats it by weight. -/
theorem misguides : graph.Misguides request trip ∧ graph.Spans ∧ trip.TiesAgree := by
  have hctx : Context.of request graph = .ok trip := Context.of_placed (by decide) rfl rfl
    (by decide +kernel) (by decide +kernel) (by decide)
  have hmisguides : graph.Misguides request trip :=
    Graph.misguides_of hctx (Graph.built_build (by decide)) (by decide +kernel)
      (by decide +kernel) (by decide) rfl (by decide +kernel) (by decide +kernel)
  have hties : trip.TiesAgree :=
    Context.Encloses.tiesAgree (trip.within 6) (by decide +kernel) (by decide +kernel)
  exact ⟨hmisguides, by decide +kernel, hties⟩

end Connection

/-- The estimate changes the best weight where states that tie part afterwards, where a ride takes
no time, and where a boarding is preferred at any price. -/
theorem Graph.misguides_each :
    (DeadHeat.graph.Misguides DeadHeat.request DeadHeat.walk ∧
      DeadHeat.graph.Spans ∧ ¬ DeadHeat.graph.BoardsAfterChange) ∧
    (Shuttle.graph.Misguides Shuttle.request Shuttle.trip ∧
      Shuttle.trip.TiesAgree ∧ ¬ Shuttle.graph.BoardsAfterChange) ∧
    (Connection.graph.Misguides Connection.request Connection.trip ∧
      Connection.graph.Spans ∧ Connection.trip.TiesAgree) :=
  ⟨DeadHeat.misguides, Shuttle.misguides, Connection.misguides⟩

end TripPlanner
