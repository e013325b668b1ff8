import TripPlanner.Decimal.Shortest
import TripPlanner.Feed.Kind
import TripPlanner.Network.Edge

/-!
# Errors

What can go wrong, by cause, and the words for it.
-/

namespace TripPlanner

/-- Why a request cannot be answered. -/
inductive RequestError (R : Type) where
  /-- Origin or destination is not given. -/
  | endMissing
  /-- No mode is allowed. -/
  | noMode
  /-- Walking or cycling does not get ahead. -/
  | speedNotPositive (walk bike : R)
  /-- No itinerary is asked for. -/
  | noItinerary

/-- Why a turn restriction cannot be added. -/
inductive RestrictionError where
  /-- There is no edge to arrive by. -/
  | unknownSource
  /-- There is no edge to go on by. -/
  | unknownTarget
  /-- The edges are not two streets one after the other. -/
  | notConsecutiveStreets (source target : EdgeIndex)

/-- Why a configuration cannot be used. -/
inductive ConfigError where
  /-- The text is not a configuration. -/
  | unreadable
  /-- No thread is left to search. -/
  | noSearchThreads
  /-- Two updaters have one reference. -/
  | configuredTwice (reference : String)
  /-- No updater has the reference. -/
  | notConfigured (reference : String)
  /-- The updater with the reference is of another kind. -/
  | otherKind (reference : String) (configured asked : FeedKind)

/-- What can go wrong. -/
inductive Error (R : Type) where
  /-- The destination is not reached. -/
  | pathNotFound
  /-- There is no street to start from or to arrive at. -/
  | vertexNotFound (near : Point R)
  /-- An edge is to join vertices that are not there. -/
  | unknownVertex
  /-- The request is not in order. -/
  | invalidRequest (cause : RequestError R)
  /-- The data of a turn restriction is not in order. -/
  | invalidData (cause : RestrictionError)
  /-- The writer does not take units any more. -/
  | writerStopped
  /-- The configuration is not in order. -/
  | config (cause : ConfigError)
  /-- The configuration file cannot be read. -/
  | unreadableFile

namespace Error

/-- Speeds are written without a point where none is needed, and never with an exponent. -/
def speedStyle : DecimalStyle := ⟨false, none, none⟩

/-- Coordinates are written with a point, and with an exponent below 0.0001 and from 10^16 on. -/
def coordinateStyle : DecimalStyle := ⟨true, some (-4), some 16⟩

/-- The words for the cause of a refused request. -/
def requestMessage : RequestError Double → String
  | .endMissing => "origin and destination are required"
  | .noMode => "no traverse mode allowed"
  | .speedNotPositive walk bike =>
    "speeds must be positive (walk " ++ Shortest.render speedStyle walk ++ ", bike "
      ++ Shortest.render speedStyle bike ++ ")"
  | .noItinerary => "at least one itinerary must be requested"

/-- The words for the cause of a refused turn restriction. -/
def restrictionMessage : RestrictionError → String
  | .unknownSource => "turn restriction from unknown edge"
  | .unknownTarget => "turn restriction to unknown edge"
  | .notConsecutiveStreets source target =>
    "bad turn restriction EdgeIndex(" ++ toString source ++ ") -> EdgeIndex(" ++ toString target
      ++ ")"

/-- The words for the cause of a refused configuration. -/
def configMessage : ConfigError → String
  | .unreadable => "the text is not a configuration"
  | .noSearchThreads => "search_threads must be at least 1"
  | .configuredTwice reference => "updater '" ++ reference ++ "' configured twice"
  | .notConfigured reference => "no updater configured as '" ++ reference ++ "'"
  | .otherKind reference configured asked =>
    "updater '" ++ reference ++ "' is configured as " ++ configured.label ++ ", not "
      ++ asked.label

/-- A point in the words of a message. -/
def pointText (p : Point Double) : String :=
  "POINT(" ++ Shortest.render coordinateStyle p.x ++ " " ++ Shortest.render coordinateStyle p.y
    ++ ")"

/-- The words for an error. -/
def message : Error Double → String
  | .pathNotFound => "No path found between origin and destination"
  | .vertexNotFound near => "No street vertex found near " ++ pointText near
  | .unknownVertex => "Invalid node index"
  | .invalidRequest cause => "Invalid request: " ++ requestMessage cause
  | .invalidData cause => "Invalid data: " ++ restrictionMessage cause
  | .writerStopped => "Graph updater stopped: graph writer is not running"
  | .config cause => "Configuration error: " ++ configMessage cause
  | .unreadableFile => "I/O error: the file cannot be read"

end Error

end TripPlanner
