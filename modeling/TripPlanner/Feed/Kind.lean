import TripPlanner.Value

/-!
# Kinds of feeds

What a real-time feed can be about.
-/

namespace TripPlanner

/-- What a feed is about. -/
inductive FeedKind where
  | carPark
  | bikeRental
  | roadworks
  deriving DecidableEq, Repr

namespace FeedKind

/-- All kinds. -/
def all : List FeedKind := [.carPark, .bikeRental, .roadworks]

/-- The name of a kind in a configuration. -/
def name : FeedKind → String
  | .carPark => "car-park"
  | .bikeRental => "bike-rental"
  | .roadworks => "roadworks"

/-- The name of a kind in a message. -/
def label : FeedKind → String
  | .carPark => "CarPark"
  | .bikeRental => "BikeRental"
  | .roadworks => "Roadworks"

/-- Reads a kind by its name. -/
def ofValue? (format : Format) (v : Value) : Option FeedKind := v.toChoice? format all name

end FeedKind

end TripPlanner
