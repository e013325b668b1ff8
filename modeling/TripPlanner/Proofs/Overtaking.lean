import TripPlanner.Proofs.Starvation
import TripPlanner.Proofs.Succession

/-!
# Overtaking

Answers in which the end of one itinerary dominates that of another (`Graph.overtaken_each`). Under
every rule a later one may dominate an earlier one of the same costs, and where time or the walk
decides also one of less weight. An earlier one may dominate a later one if slack adds up, or, where
time or the walk decides, if the trip ends with a boarding after a guaranteed change, or, where the
weight does, if such a boarding was made needless by one with another bicycle.
-/

namespace TripPlanner

section
variable {R : Type} [Field R] [LinearOrder R] [IsStrictOrderedRing R] [FloorRing R] [Geodesy R]

/-- Nothing has negative costs, no estimate is used, and two itineraries of the answer end with `a`
and, later on, `b`. -/
structure Graph.Answers (g : Graph R) (request : Request R) (ctx : Context R) (a b : State R) :
    Prop where
  placed : Context.of request g = .ok ctx
  graphMeasured : g.IsMeasured
  requestMeasured : request.IsMeasured
  trivial : request.heuristic = .trivial
  inTurn : ∃ paths, g.findPaths request = .ok paths ∧ EndInTurn paths a b

theorem Graph.answers_of {g : Graph R} {request : Request R} {ctx : Context R} {a b : State R}
    {i j : StateId} (hctx : Context.of request g = .ok ctx) (hg : g.IsMeasured)
    (hrequest : request.IsMeasured) (htrivial : request.heuristic = .trivial)
    (hfound : [i, j].Sublist ctx.search.1.found) (ha : ctx.search.1.store.get? i = some a)
    (hb : ctx.search.1.store.get? j = some b) : g.Answers request ctx a b where
  placed := hctx
  graphMeasured := hg
  requestMeasured := hrequest
  trivial := htrivial
  inTurn := by
    have hsome : ctx.search.1.found ≠ [] := List.ne_nil_of_mem (hfound.subset List.mem_cons_self)
    have hpaths := Context.findPaths_eq_ok_iff.2 ⟨hsome, rfl⟩
    exact ⟨_, (Graph.findPaths_of hctx).trans hpaths,
      (Context.endInTurn_iff hpaths).2 ⟨i, j, hfound, ha, hb⟩⟩

/-- The state dominates another one when the search has ended. -/
def Context.Outranks (ctx : Context R) (a b : State R) : Prop :=
  ctx.dominates ctx.request.dominance ctx.search.1.store a b = true

instance {ctx : Context R} {a b : State R} : Decidable (ctx.Outranks a b) :=
  inferInstanceAs (Decidable (_ = true))

end

/-! ## A street with a turn restriction -/

namespace Fork

theorem outranks (rule : DominanceRule) :
    graph.Answers (request rule) (walk rule) byStreet byLink ∧
      (walk rule).Outranks byLink byStreet := by
  refine ⟨Graph.answers_of (i := 1) (j := 3) (of_request rule) (by decide +kernel) ?_ rfl ?_ ?_ ?_,
    ?_⟩
  all_goals cases rule <;> decide +kernel

end Fork

/-! ## A ride that takes less time and a shorter walk -/

namespace Cycleway

/-- A footpath to work, and a street that is faster by bicycle and not safe. -/
def graph : Graph ℚ :=
  .build
    [.intersection "home" ⟨0, 0⟩, .intersection "corner" ⟨1, 0⟩, .intersection "work" ⟨2, 0⟩]
    [(0, 2, .street (.plain 1 100 .pedestrian)),
      (0, 1, .street ((Street.plain 2 200 .allStreet).withBicycleSafety 4)), (1, 2, .link 1)]

/-- A trip to work with one's own bicycle, which may be pushed. -/
def request (rule : DominanceRule) : Request ℚ :=
  { Fork.request rule with
    modes := .ofList [.walk, .bicycle]
    optimize := .safe
    bikeSpeed := 4 }

/-- The trip placed on the network. -/
def ride (rule : DominanceRule) : Context ℚ := .placed (request rule) graph 0 2 ⟨0, 0⟩ ⟨2, 0⟩

/-- Come over the footpath. -/
def pushed : State ℚ :=
  ⟨2, 100, 100, 100, some 0, some ⟨0, .street⟩, some .walk, .initial⟩

/-- Come around the corner. -/
def ridden : State ℚ :=
  ⟨2, 801 / 4, 201 / 4, 0, some 1, some ⟨2, .other⟩, some .bicycle, .initial⟩

theorem outranks {rule : DominanceRule} (hrule : rule = .earliestArrival ∨ rule = .leastWalk) :
    graph.Answers (request rule) (ride rule) pushed ridden ∧
      (ride rule).Outranks ridden pushed ∧ pushed.weight < ridden.weight := by
  have hctx : Context.of (request rule) graph = .ok (ride rule) := by
    refine Context.of_placed ?_ rfl rfl (by decide +kernel) (by decide +kernel) (by simp [request])
    cases rule <;> decide
  refine ⟨Graph.answers_of (i := 2) (j := 3) hctx (by decide +kernel) ?_ rfl ?_ ?_ ?_, ?_,
    by decide +kernel⟩
  all_goals rcases hrule with rfl | rfl <;> decide +kernel

end Cycleway

/-! ## Four ways that differ by a hair -/

namespace Ladder

/-- By each of the four streets a ride weighs 80, or a little more. -/
def graph : Graph ℚ :=
  .build
    [.intersection "home" ⟨0, 0⟩, .intersection "a" ⟨1, 0⟩, .intersection "b" ⟨2, 0⟩,
      .intersection "c" ⟨3, 0⟩, .intersection "d" ⟨4, 0⟩, .intersection "work" ⟨5, 0⟩]
    [(0, 4, .street ((Street.plain 4 10.00000375 .allStreet).withBicycleSafety 8)),
      (4, 5, .link 0.00002),
      (0, 3, .street ((Street.plain 3 5.00000125 .allStreet).withBicycleSafety 16)),
      (3, 5, .link 0.00016),
      (0, 2, .street ((Street.plain 2 8.000001 .allStreet).withBicycleSafety 10)),
      (2, 5, .link 0.00008),
      (0, 1, .street ((Street.plain 1 10 .allStreet).withBicycleSafety 8)), (1, 5, .link 0)]

/-- A ride to work, at a metre a second. -/
def request : Request ℚ :=
  { Cycleway.request .pareto with destination := some ⟨5, 0⟩, bikeSpeed := 1 }

/-- The ride placed on the network. -/
def ride : Context ℚ := .placed request graph 0 5 ⟨0, 0⟩ ⟨5, 0⟩

/-- Come by `a`. -/
def first : State ℚ := ⟨5, 80, 10, 0, some 1, some ⟨7, .other⟩, some .bicycle, .initial⟩

/-- Come by `d`. -/
def last : State ℚ :=
  ⟨5, 80.00005, 10.00002375, 0, some 4, some ⟨1, .other⟩, some .bicycle, .initial⟩

/-- The way by `b` takes the place of the one by `a`, and the one by `c` that of the one by `b`. It
is too dear to keep out the one by `d`. -/
theorem outranks : graph.Answers request ride first last ∧ ride.Outranks first last ∧
    graph.IsUntimed := by
  have hctx : Context.of request graph = .ok ride := Context.of_placed (by decide) rfl rfl
    (by decide +kernel) (by decide +kernel) (by decide)
  exact ⟨Graph.answers_of (i := 5) (j := 8) hctx (by decide +kernel) (by decide +kernel) rfl
    (by decide +kernel) (by decide +kernel) (by decide +kernel), by decide +kernel,
    by decide⟩

end Ladder

/-! ## A boarding that ends the trip -/

namespace Terminus

/-- A tram to work is boarded after a guaranteed change, from a stop farther off, or on the way. -/
def graph : Graph ℚ :=
  .build
    [.intersection "home" ⟨0, 0⟩, .intersection "work" ⟨1, 0⟩, ⟨"a", ⟨0, 1⟩, .transitStop⟩,
      ⟨"b", ⟨0, 2⟩, .transitStop⟩, ⟨"c", ⟨0, 3⟩, .transitStop⟩, ⟨"d", ⟨0, 4⟩, .transitStop⟩,
      ⟨"tram", ⟨0, 5⟩, .transitOnboard⟩]
    [(0, 2, .link 0), (2, 3, .timedTransfer), (3, 1, .board 100), (0, 4, .link 10),
      (4, 6, .board 80), (6, 1, .alight), (0, 5, .link 80), (5, 1, .board 0)]

/-- A trip to work without much of a walk. -/
def request (rule : DominanceRule) : Request ℚ :=
  { Roundabout.request with
    modes := .ofList [.walk, .transit]
    walkReluctance := 10
    dominance := rule }

/-- The trip placed on a network. -/
def trip (rule : DominanceRule) (g : Graph ℚ) : Context ℚ :=
  .placed (request rule) g 0 1 ⟨0, 0⟩ ⟨1, 0⟩

/-- Boarded after the change. -/
def changed : State ℚ :=
  ⟨1, 700, 100, 0, some 4, some ⟨2, .board⟩, some .transit, ⟨true, none, false, false⟩⟩

/-- Boarded at the stop farther off. -/
def walked : State ℚ :=
  ⟨1, 1400, 80, 80, some 1, some ⟨7, .board⟩, some .transit, ⟨true, none, false, false⟩⟩

/-- Who gets off at work takes the place of who boards after the change. -/
theorem outranks :
    graph.Answers (request .earliestArrival) (trip .earliestArrival graph) changed walked ∧
      (trip .earliestArrival graph).Outranks changed walked := by
  have hctx : Context.of (request .earliestArrival) graph = .ok (trip .earliestArrival graph) :=
    Context.of_placed (by decide) rfl rfl (by decide +kernel) (by decide +kernel)
      (by decide)
  exact ⟨Graph.answers_of (i := 5) (j := 8) hctx (by decide) (by decide +kernel) rfl
    (by decide +kernel) (by decide +kernel) (by decide +kernel), by decide +kernel⟩

end Terminus

/-! ## The nearer the stop, the longer the wait -/

namespace Busline

/-- A tram to work is boarded after a guaranteed change or, with less of a walk, on the way. A bus
leaves from a stop that is nearer still, and one changes from it. -/
def graph : Graph ℚ :=
  .build
    [.intersection "home" ⟨0, 0⟩, .intersection "work" ⟨1, 0⟩, ⟨"a", ⟨0, 1⟩, .transitStop⟩,
      ⟨"b", ⟨0, 2⟩, .transitStop⟩, ⟨"c", ⟨0, 3⟩, .transitStop⟩, ⟨"d", ⟨0, 4⟩, .transitStop⟩,
      ⟨"e", ⟨0, 5⟩, .transitStop⟩, ⟨"tram", ⟨0, 6⟩, .transitOnboard⟩,
      ⟨"bus", ⟨0, 7⟩, .transitOnboard⟩]
    [(0, 2, .link 100), (2, 3, .timedTransfer), (3, 1, .board 0), (0, 4, .link 90),
      (4, 7, .board 200), (7, 1, .alight), (0, 5, .link 80), (5, 8, .board 900), (8, 6, .alight),
      (6, 1, .board 0)]

/-- Boarded after the change. -/
def changed : State ℚ :=
  ⟨1, 1600, 100, 100, some 6, some ⟨2, .board⟩, some .transit, ⟨true, none, false, false⟩⟩

/-- Come with the bus. -/
def bused : State ℚ :=
  ⟨1, 2900, 980, 80, some 9, some ⟨9, .board⟩, some .transit, ⟨true, none, false, false⟩⟩

theorem outranks :
    graph.Answers (Terminus.request .leastWalk) (Terminus.trip .leastWalk graph) changed bused ∧
      (Terminus.trip .leastWalk graph).Outranks changed bused := by
  have hctx :
      Context.of (Terminus.request .leastWalk) graph = .ok (Terminus.trip .leastWalk graph) :=
    Context.of_placed (by decide) rfl rfl (by decide +kernel) (by decide +kernel)
      (by decide)
  exact ⟨Graph.answers_of (i := 7) (j := 10) hctx (by decide) (by decide +kernel) rfl
    (by decide +kernel) (by decide +kernel) (by decide +kernel), by decide +kernel⟩

end Busline

/-! ## A boarding with another bicycle -/

namespace Bazaar

/-- Two stations, the second one where a bicycle has to be parked, and stops near it; one of them is
come to over a guaranteed change as well. -/
def graph : Graph ℚ :=
  (Graph.build
    [.intersection "home" ⟨0, 0⟩, .intersection "work" ⟨1, 0⟩,
      ⟨"market", ⟨0, 2⟩, .rentalStation "m"⟩, ⟨"park", ⟨0, 3⟩, .rentalStation "p"⟩,
      ⟨"a", ⟨0, 4⟩, .transitStop⟩, ⟨"b", ⟨0, 5⟩, .transitStop⟩, ⟨"c", ⟨0, 6⟩, .transitStop⟩,
      ⟨"tram", ⟨0, 6⟩, .transitOnboard⟩]
    [(0, 2, .link 10), (2, 2, .rentBike), (2, 3, .bikePark), (3, 3, .dropOffBike), (3, 5, .link 10),
      (5, 1, .board 0), (0, 4, .link 1000), (4, 5, .timedTransfer), (3, 6, .link 10),
      (6, 7, .board 500), (7, 1, .alight)]).modifyServices fun services =>
    services.modifyRental fun rental =>
      { rental with
        stations := (rental.stations.place "m" ⟨"m", "m", ⟨0, 2⟩, 1, 1, .ofList ["n"]⟩ 2).place "p"
          ⟨"p", "p", ⟨0, 3⟩, 1, 1, .ofList ["n"]⟩ 3 }

/-- The trip placed on the network. -/
def trip : Context ℚ := .placed Detour.request graph 0 1 ⟨0, 0⟩ ⟨1, 0⟩

/-- Whoever has boarded and parked a bicycle. -/
def parked : Plane := ⟨true, none, false, true⟩

/-- Boarded at `b`. -/
def boarded : State ℚ :=
  ⟨1, 890, 170, 20, some 9, some ⟨5, .board⟩, some .transit, parked⟩

/-- Got off the tram from `c`. -/
def alighted : State ℚ := ⟨1, 1390, 670, 20, some 10, some ⟨10, .other⟩, some .walk, parked⟩

/-- Who has not parked a bicycle boards after the change, and has not arrived with that. -/
theorem outranks : graph.Answers Detour.request trip boarded alighted ∧
    trip.Outranks boarded alighted ∧ trip.MixesBicycles := by
  have hctx : Context.of Detour.request graph = .ok trip := Context.of_placed (by decide)
    rfl rfl (by decide +kernel) (by decide +kernel) (by decide)
  exact ⟨Graph.answers_of (i := 11) (j := 14) hctx (by decide) (by decide +kernel) rfl
    (by decide +kernel) (by decide +kernel) (by decide +kernel), by decide, rfl, rfl⟩

end Bazaar

/-- Itineraries of one answer do dominate each other, later ones earlier ones and earlier ones later
ones, under every rule. -/
theorem Graph.overtaken_each :
    (∀ rule, Fork.graph.Answers (Fork.request rule) (Fork.walk rule) Fork.byStreet Fork.byLink ∧
      (Fork.walk rule).Outranks Fork.byLink Fork.byStreet) ∧
    (∀ rule, rule = .earliestArrival ∨ rule = .leastWalk →
      Cycleway.graph.Answers (Cycleway.request rule) (Cycleway.ride rule) Cycleway.pushed
          Cycleway.ridden ∧
        (Cycleway.ride rule).Outranks Cycleway.ridden Cycleway.pushed ∧
        Cycleway.pushed.weight < Cycleway.ridden.weight) ∧
    (Ladder.graph.Answers Ladder.request Ladder.ride Ladder.first Ladder.last ∧
      Ladder.ride.Outranks Ladder.first Ladder.last ∧ Ladder.graph.IsUntimed) ∧
    (Terminus.graph.Answers (Terminus.request .earliestArrival)
        (Terminus.trip .earliestArrival Terminus.graph) Terminus.changed Terminus.walked ∧
      (Terminus.trip .earliestArrival Terminus.graph).Outranks Terminus.changed Terminus.walked) ∧
    (Busline.graph.Answers (Terminus.request .leastWalk)
        (Terminus.trip .leastWalk Busline.graph) Busline.changed Busline.bused ∧
      (Terminus.trip .leastWalk Busline.graph).Outranks Busline.changed Busline.bused) ∧
    Bazaar.graph.Answers Detour.request Bazaar.trip Bazaar.boarded Bazaar.alighted ∧
      Bazaar.trip.Outranks Bazaar.boarded Bazaar.alighted ∧ Bazaar.trip.MixesBicycles :=
  ⟨Fork.outranks, fun _ => Cycleway.outranks, Ladder.outranks, Terminus.outranks,
    Busline.outranks, Bazaar.outranks⟩

end TripPlanner
