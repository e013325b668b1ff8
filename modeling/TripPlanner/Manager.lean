import TripPlanner.Feed
import TripPlanner.Writer

/-!
# The updater manager

The manager owns the graph, its writer and the feeds. A feed sets up its service when it is added,
brings in data when it is polled, and takes its service and vertices back when the manager stops.
-/

namespace TripPlanner

/-- What a feed brings in. -/
inductive FeedData (R : Type) where
  /-- All car parks. -/
  | carParks (records : List (CarPark R))
  /-- All rental stations. -/
  | stations (records : List (Station R))
  /-- All closed ways and areas. -/
  | roadworks (ways : List Int) (areas : List (Area R))

/-- A feed. -/
structure Updater where
  /-- What it is about. -/
  kind : FeedKind
  /-- The reference under which it is configured. -/
  reference : String
  /-- Seconds between two polls, none or zero to poll once. -/
  period : Option Nat
  /-- Rental types of networks, for a rental feed. -/
  networkTypes : Table String RentalType

namespace Updater

/-- The feed with the rental type of one more network. -/
def withNetworkType (updater : Updater) (network : String) (type : RentalType) : Updater :=
  { updater with networkTypes := updater.networkTypes.insert network type }

/-- Whether the feed is polled again and again. -/
def isPeriodic (updater : Updater) : Bool := updater.period.any fun seconds => 0 < seconds

variable {R : Type}

/-- The unit that registers the service of a feed. -/
def setUp (updater : Updater) (g : Graph R) : Graph R :=
  match updater.kind with
  | .carPark => g.modifyServices fun services => services.modifyCarParks fun registry => registry
  | .bikeRental =>
    g.modifyServices fun services => services.declareNetworks updater.networkTypes.entries
  | .roadworks => g.modifyServices fun services => { services with roadworks := some .empty }

variable [Quantity R] [Geodesy R]

/-- The unit that takes back all that a feed has added. -/
def tearDown (updater : Updater) (g : Graph R) : Graph R :=
  match updater.kind with
  | .carPark => g.dropRecords (CarPark R)
  | .bikeRental => g.dropRecords (Station R)
  | .roadworks => g.modifyServices fun services => { services with roadworks := none }

end Updater

/-- The unit that brings in the data of a feed. -/
def FeedData.apply {R : Type} [Quantity R] [Geodesy R] (data : FeedData R) (g : Graph R) :
    Graph R :=
  match data with
  | .carParks records => g.applyRecords records
  | .stations records => g.applyRecords records
  | .roadworks ways areas => g.applyRoadworks ways areas

/-- A graph with its writer and feeds. -/
structure Manager (R : Type) where
  /-- The graph that everyone sees. -/
  graph : Graph R
  /-- The feeds that run, in the order in which they were added. -/
  updaters : List Updater
  /-- Whether the writer takes units. -/
  isRunning : Bool

namespace Manager

variable {R : Type}

/-- A manager that takes over a graph. -/
def start (g : Graph R) : Manager R := ⟨g, [], true⟩

/-- Has the writer apply a unit, if it still runs. -/
def submit (manager : Manager R) (unit : Graph R → Graph R) : Except (Error R) (Manager R) :=
  if manager.isRunning then
    let batch : Batch R Unit := (Batch.start manager.graph).carryOut [.run unit none]
    .ok { manager with graph := batch.graph }
  else .error .writerStopped

/-- Has the writer apply a unit that answers something. -/
def execute {α : Type} (manager : Manager R) (unit : Graph R → α × Graph R) :
    Except (Error R) (α × Manager R) := do
  let after ← manager.submit fun g => (unit g).2
  return ((unit manager.graph).1, after)

/-- Adds a feed: its service is set up, and it waits for its first poll. -/
def addUpdater (manager : Manager R) (updater : Updater) : Except (Error R) (Manager R) := do
  let manager ← manager.submit updater.setUp
  return { manager with updaters := manager.updaters ++ [updater] }

/-- The feed with the given number, if it is polled again and again. -/
def periodic? (manager : Manager R) (feed : Nat) : Option Updater :=
  manager.updaters[feed]?.filter Updater.isPeriodic

variable [Quantity R] [Geodesy R]

/-- Polls a feed: data that is new is brought in, otherwise nothing happens. -/
def poll (manager : Manager R) (data : Option (FeedData R)) : Except (Error R) (Manager R) :=
  match data with
  | none => .ok manager
  | some data => manager.submit data.apply

/-- Stops the feeds, takes back what they have added, and stops the writer. -/
def stop (manager : Manager R) : Manager R :=
  let commands : List (Command R Unit) :=
    manager.updaters.map (fun updater => .run updater.tearDown none) ++ [.stop]
  if manager.isRunning then
    ⟨((Batch.start manager.graph).carryOut commands).graph, [], false⟩
  else manager

end Manager

end TripPlanner
