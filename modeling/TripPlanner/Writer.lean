import TripPlanner.Graph

/-!
# The graph writer

All changes of the graph go through one writer. It takes the commands that have come in, applies
their units one after another to its own copy of the graph, and then lets others see the result.
Whoever waits for a unit is told once the result with that unit can be seen.
-/

namespace TripPlanner

/-- What the writer is told. -/
inductive Command (R σ : Type) where
  /-- To apply a unit, and to give a signal when that can be seen. -/
  | run (unit : Graph R → Graph R) (signal : Option σ)
  /-- To stop. Commands behind this one are dropped. -/
  | stop

/-- What others see of the writer. -/
inductive Report (R σ : Type) where
  /-- A new graph. -/
  | published (g : Graph R)
  /-- A signal. -/
  | signalled (signal : σ)

/-- The commands taken at once, as far as they are carried out. -/
structure Batch (R σ : Type) where
  /-- The graph with the units applied. -/
  graph : Graph R
  /-- The number of units applied. -/
  applied : Nat
  /-- The signals to give. -/
  signals : List σ
  /-- Whether the writer was told to stop. -/
  stopped : Bool

namespace Batch

variable {R σ : Type}

/-- The batch before any command. -/
def start (g : Graph R) : Batch R σ := ⟨g, 0, [], false⟩

/-- Carries out commands up to the first one to stop. -/
def carryOut (batch : Batch R σ) : List (Command R σ) → Batch R σ
  | [] => batch
  | .stop :: _ => { batch with stopped := true }
  | .run unit signal :: rest =>
    carryOut
      { batch with
        graph := (unit batch.graph).bumpVersion
        applied := batch.applied + 1
        signals := batch.signals ++ signal.toList }
      rest

/-- What others see of the batch: the new graph, if there is one, and then the signals. -/
def reports (batch : Batch R σ) : List (Report R σ) :=
  (if 0 < batch.applied then [.published batch.graph] else []) ++ batch.signals.map .signalled

end Batch

/-- All that others see of a writer that takes the given batches of commands. -/
def writerReports {R σ : Type} (g : Graph R) : List (List (Command R σ)) → List (Report R σ)
  | [] => []
  | commands :: rest =>
    let batch := (Batch.start g).carryOut commands
    batch.reports ++ if batch.stopped then [] else writerReports batch.graph rest

end TripPlanner
