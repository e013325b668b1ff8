import TripPlanner.Config
import TripPlanner.Manager
import TripPlanner.Search.Comparison

/-!
# The router

Trip planning on a graph that feeds keep up to date, set up by a configuration.
-/

namespace TripPlanner

/-- A trip planning service. -/
structure Router (R : Type) where
  /-- The graph with its feeds. -/
  manager : Manager R
  /-- What the router is set up with. -/
  config : RouterConfig R

namespace Router

variable {R : Type}

/-- A router that takes over a graph. -/
def start (g : Graph R) (config : RouterConfig R) : Router R := ⟨.start g, config⟩

/-- A request between two points, with the configured options. -/
def request (router : Router R) (origin destination : Point R) (modes : ModeSet) : Request R :=
  { router.config.routingDefaults with
    origin := some origin
    destination := some destination
    modes := modes }

/-- The feed that is configured under a reference, if it is of the given kind. -/
def configuredUpdater (router : Router R) (reference : String) (kind : FeedKind) :
    Except (Error R) Updater := do
  let config ← router.config.updater reference kind
  let updater : Updater := ⟨kind, reference, config.pollingPeriod, ∅⟩
  if kind = .bikeRental then
    return config.networkTypes.foldl
      (fun updater declared =>
        updater.withNetworkType declared.network (.ofName declared.rentalType))
      updater
  else return updater

/-- Adds the feed that is configured under a reference. -/
def addUpdater (router : Router R) (reference : String) (kind : FeedKind) :
    Except (Error R) (Router R) := do
  let updater ← router.configuredUpdater reference kind
  return { router with manager := ← router.manager.addUpdater updater }

/-- Plans a trip. -/
def plan [Quantity R] [Geodesy R] (router : Router R) (request : Request R) :
    Except (Error R) (List (Itinerary R)) :=
  router.manager.graph.findPathsComparing request

/-- Plans trips, each by itself. -/
def planMany [Quantity R] [Geodesy R] (router : Router R) (requests : List (Request R)) :
    List (Except (Error R) (List (Itinerary R))) :=
  requests.map router.plan

end Router

end TripPlanner
