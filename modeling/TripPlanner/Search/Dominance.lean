import TripPlanner.Search.Context

/-!
# Dominance

A state dominates another one at the same vertex if it makes it needless for finding paths. Costs
are compared only between states that have the same future: they must be on the same plane, and not
on different sides of a transfer or of a turn restriction.
-/

namespace TripPlanner

variable {R : Type} [Quantity R]

/-- The slack of the comparison by both weight and time. -/
def paretoSlack : R := Quantity.ratio 1 10000

/-- Whether the costs of `a` are as good as those of `b`. -/
def DominanceRule.noWorse (rule : DominanceRule) (a b : State R) : Bool :=
  match rule with
  | .minimumWeight => a.weight ≤ b.weight
  | .earliestArrival => a.elapsed ≤ b.elapsed
  | .leastWalk => a.walked ≤ b.walked
  | .pareto => a.elapsed ≤ b.elapsed + paretoSlack && a.weight ≤ b.weight + paretoSlack

omit [Quantity R] in
/-- Whether both states came by a simple transfer or neither did, none came by a timed one, and
both or neither were ever on board. -/
def onSameSide (a b : State R) : Bool :=
  a.plane.everBoarded = b.plane.everBoarded
    && a.arrivedVia .simpleTransfer = b.arrivedVia .simpleTransfer
    && !a.arrivedVia .timedTransfer && !b.arrivedVia .timedTransfer

omit [Quantity R] in
/-- Whether both states have just boarded, the first one after a guaranteed change. -/
def boardedAfterChange (store : StateStore R) (a b : State R) : Bool :=
  a.arrivedVia .board && b.arrivedVia .board
    && (store.parent? a).any fun parent => parent.arrivedVia .timedTransfer

namespace Context

variable [Geodesy R]

/-- Whether the street that `a` came over may make for another future than that of `b`: a turn
restriction hangs off it, or a vehicle may loop close to the ends of the trip. -/
def futureDiffers (ctx : Context R) (a b : State R) : Bool :=
  match a.back with
  | none => false
  | some back =>
    back.edgeClass = .street && a.back != b.back &&
      (!(ctx.graph.restrictionsAfter back.index).isEmpty
        || (a.mode != some .walk && ctx.isCloseToEnds a.vertex))

/-- Whether `a` makes `b` needless. The store holds the predecessors of both. -/
def dominates (ctx : Context R) (rule : DominanceRule) (store : StateStore R) (a b : State R) :
    Bool :=
  onSameSide a b &&
    (boardedAfterChange store a b ||
      (a.plane = b.plane && !ctx.futureDiffers a b && rule.noWorse a b))

end Context

end TripPlanner
