import TripPlanner.Request.Reading
import TripPlanner.Toml

/-!
# Configurations

What a router is set up with: the threads that search, the options that requests start from, and
the feeds. Every feed has a reference of its own.
-/

namespace TripPlanner

/-- The rental type of a network, as a configuration writes it. -/
structure NetworkTypeConfig where
  /-- The network. -/
  network : String
  /-- The name of its rental type. -/
  rentalType : String
  deriving DecidableEq, BEq

/-- A feed in a configuration. -/
structure UpdaterConfig where
  /-- What the feed is about. -/
  kind : FeedKind
  /-- The reference by which it is looked up. -/
  reference : String
  /-- Seconds between two polls, none or zero to poll once. -/
  frequency : Option Nat
  /-- Rental types of networks, for a rental feed. -/
  networkTypes : List NetworkTypeConfig
  deriving DecidableEq, BEq

namespace UpdaterConfig

/-- Seconds between two polls, none to poll once. -/
def pollingPeriod (updater : UpdaterConfig) : Option Nat :=
  updater.frequency.filter fun seconds => 0 < seconds

/-- The record of a feed. -/
def toValue (updater : UpdaterConfig) : Value :=
  .record [("type", .text updater.kind.name), ("config_ref", .text updater.reference),
    ("frequency_sec", .ofOption .ofNat updater.frequency),
    ("network_types", .ofList (fun declared => .record [("network", .text declared.network),
      ("type", .text declared.rentalType)]) updater.networkTypes)]

end UpdaterConfig

/-- What a router is set up with. -/
structure RouterConfig (R : Type) where
  /-- The number of threads that search, as many as there are cores if not given. -/
  searchThreads : Option Nat
  /-- The options that requests start from. -/
  routingDefaults : Request R
  /-- The feeds. -/
  updaters : List UpdaterConfig
  deriving BEq

namespace RouterConfig

variable {R : Type}

/-- The feed with a reference, which has to be of the given kind. -/
def updater (config : RouterConfig R) (reference : String) (kind : FeedKind) :
    Except (Error R) UpdaterConfig :=
  match config.updaters.find? fun updater => updater.reference = reference with
  | none => .error (.config (.notConfigured reference))
  | some updater =>
    if updater.kind = kind then .ok updater
    else .error (.config (.otherKind reference updater.kind kind))

/-- The first reference that repeats an earlier one. -/
def repeated? : List String → List String → Option String
  | _, [] => none
  | seen, reference :: rest =>
    if reference ∈ seen then some reference else repeated? (seen ++ [reference]) rest

/-- Finds the first thing that is not in order. -/
def validate (config : RouterConfig R) : Except (Error R) Unit :=
  if config.searchThreads = some 0 then .error (.config .noSearchThreads)
  else
    match repeated? [] (config.updaters.map UpdaterConfig.reference) with
    | some reference => .error (.config (.configuredTwice reference))
    | none => .ok ()

variable [Quantity R]

/-- The configuration that says nothing. -/
def default : RouterConfig R := ⟨none, .default, []⟩

variable [OfDecimal R]

/-- Reads the rental type of a network. -/
def networkType? (v : Value) : Option NetworkTypeConfig := do
  let fields ← Fields.of? .toml ["network", "type"] v
  return ⟨← fields.required "network" Value.toText?, ← fields.required "type" Value.toText?⟩

/-- Reads a feed. -/
def updater? (v : Value) : Option UpdaterConfig := do
  let fields ← Fields.of? .toml ["type", "config_ref", "frequency_sec", "network_types"] v
  return {
    kind := ← fields.required "type" (FeedKind.ofValue? .toml)
    reference := ← fields.required "config_ref" Value.toText?
    frequency := ← fields.withDefault "frequency_sec" none (Value.toOption? (Value.toNat? 64))
    networkTypes := ← fields.withDefault "network_types" [] (Value.toList? networkType?) }

/-- Reads a configuration. -/
def ofValue? (v : Value) : Option (RouterConfig R) := do
  let fields ← Fields.of? .toml ["search_threads", "routing_defaults", "updaters"] v
  return {
    searchThreads := ← fields.withDefault "search_threads" none
      (Value.toOption? (Value.toNat? 64))
    routingDefaults := ← fields.withDefault "routing_defaults" Request.default
      (Request.ofValue? .toml)
    updaters := ← fields.withDefault "updaters" [] (Value.toList? updater?) }

/-- The configuration that a TOML text stands for, if it is in order. -/
def ofText (text : String) : Except (Error R) (RouterConfig R) :=
  match (Toml.read? text).bind ofValue? with
  | none => .error (.config .unreadable)
  | some config => config.validate.map fun _ => config

/-- The configuration in a file with the given contents, if it could be read. -/
def ofFile (contents : Option String) : Except (Error R) (RouterConfig R) :=
  match contents with
  | none => .error .unreadableFile
  | some text => ofText text

end RouterConfig

end TripPlanner
