import TripPlanner.Proofs.Mutations

/-!
# Serialization

The writer takes the commands that have come in all at once, as many as there happen to be, and
shows the graph only after the last of them. Whatever these batches are, the outcome is that of one
unit at a time (`Serializes`, `serializes_writerLog`): the units in front of the first command to
stop are applied in order, the graphs that are published are among those that come about one unit
after the other, and no signal is given before the graph with its unit is published.
-/

namespace TripPlanner

variable {R σ : Type}

/-! ## One unit at a time -/

/-- A unit that the writer is to apply, and the signal to give for it. -/
structure Order (R σ : Type) where
  unit : Graph R → Graph R
  signal : Option σ

/-- The units in front of the first command to stop. -/
def orders : List (Command R σ) → List (Order R σ)
  | [] => []
  | .stop :: _ => []
  | .run unit signal :: rest => ⟨unit, signal⟩ :: orders rest

/-- Whether there is a command to stop. -/
def stops : List (Command R σ) → Bool
  | [] => false
  | .stop :: _ => true
  | .run .. :: rest => stops rest

theorem orders_append (commands rest : List (Command R σ)) :
    orders (commands ++ rest) = orders commands ++ if stops commands then [] else orders rest := by
  induction commands with
  | nil => simp [orders, stops]
  | cons command commands ih =>
    cases command with
    | stop => simp [orders, stops]
    | run =>
      simp only [List.cons_append, orders, ih]
      rfl

namespace Graph

/-- The graph after the units have been applied, one version each. -/
def serially (g : Graph R) (orders : List (Order R σ)) : Graph R :=
  orders.foldl (fun g order => (order.unit g).bumpVersion) g

theorem serially_append (g : Graph R) (orders later : List (Order R σ)) :
    g.serially (orders ++ later) = (g.serially orders).serially later :=
  List.foldl_append

end Graph

/-! ## What the writer does -/

/-- A unit with the graph that it is applied to. -/
structure Application (R : Type) where
  unit : Graph R → Graph R
  copy : Graph R

/-- The writer applies a unit to its copy of the graph, or lets others see something. -/
inductive WriterEvent (R σ : Type) where
  | applied (application : Application R)
  | reported (report : Report R σ)

namespace WriterEvent

def application? : WriterEvent R σ → Option (Application R)
  | .applied application => some application
  | .reported _ => none

def report? : WriterEvent R σ → Option (Report R σ)
  | .applied _ => none
  | .reported report => some report

def published? : WriterEvent R σ → Option (Graph R)
  | .applied _ => none
  | .reported (.published g) => some g
  | .reported (.signalled _) => none

def signal? : WriterEvent R σ → Option σ
  | .applied _ => none
  | .reported (.published _) => none
  | .reported (.signalled signal) => some signal

end WriterEvent

/-- The applications by which a batch is carried out. -/
def Batch.applications (batch : Batch R σ) : List (Command R σ) → List (Application R)
  | [] => []
  | .stop :: _ => []
  | .run unit signal :: rest =>
    ⟨unit, batch.graph⟩ :: applications (batch.carryOut [.run unit signal]) rest

/-- All that the writer does with the given batches of commands. Each time it begins with a copy of
the graph that was published last. -/
def writerLog (snapshot : Graph R) : List (List (Command R σ)) → List (WriterEvent R σ)
  | [] => []
  | commands :: rest =>
    let batch := (Batch.start snapshot).carryOut commands
    ((Batch.start snapshot).applications commands).map .applied ++ batch.reports.map .reported ++
      if batch.stopped then []
      else writerLog (if 0 < batch.applied then batch.graph else snapshot) rest

/-! ## One batch -/

namespace Batch

theorem carryOut_eq (batch : Batch R σ) (commands : List (Command R σ)) :
    batch.carryOut commands =
      ⟨batch.graph.serially (orders commands), batch.applied + (orders commands).length,
        batch.signals ++ (orders commands).filterMap Order.signal,
        batch.stopped || stops commands⟩ := by
  induction commands generalizing batch with
  | nil => simp [carryOut, orders, stops, Graph.serially]
  | cons command commands ih =>
    cases command with
    | stop => simp [carryOut, orders, stops, Graph.serially]
    | run unit signal =>
      rw [carryOut, ih]
      cases signal <;>
        simp [orders, stops, Graph.serially, Nat.add_assoc, Nat.add_comm 1]

theorem applications_eq (batch : Batch R σ) (commands : List (Command R σ)) :
    batch.applications commands = (orders commands).mapIdx fun i order =>
      ⟨order.unit, batch.graph.serially ((orders commands).take i)⟩ := by
  induction commands generalizing batch with
  | nil => rfl
  | cons command commands ih =>
    cases command with
    | stop => rfl
    | run unit signal =>
      rw [applications, ih, orders, List.mapIdx_cons]
      rfl

/-- Without a unit the graph stays what it was, so the next copy may as well be that of the batch. -/
theorem snapshot_eq (g : Graph R) (commands : List (Command R σ)) :
    (if 0 < ((start g).carryOut commands).applied then ((start g).carryOut commands).graph else g) =
      g.serially (orders commands) := by
  rw [carryOut_eq]
  cases horders : orders commands with
  | nil => rfl
  | cons order rest => simp [start]

end Batch

/-- What others see of the log is what the writer reports. -/
theorem reports_writerLog (g : Graph R) (batches : List (List (Command R σ))) :
    (writerLog g batches).filterMap WriterEvent.report? = writerReports g batches := by
  induction batches generalizing g with
  | nil => rfl
  | cons commands rest ih =>
    rw [writerLog, writerReports]
    simp only [List.filterMap_append, List.filterMap_map, Function.comp_def, WriterEvent.report?,
      List.filterMap_none, List.filterMap_some, List.nil_append, Batch.snapshot_eq]
    congr 1
    split
    · rfl
    · rw [ih, Batch.carryOut_eq]
      rfl

/-! ## All batches -/

variable {g : Graph R} {first later : List (Order R σ)} {log log' : List (WriterEvent R σ)}

/-- A log of the writer tells of the units one at a time: each is applied to what the units in front
of it have made. Graphs are published after more and more of the units, the last one after all. Up
to any moment, signals have been given only for units of a graph that has been published. -/
structure Serializes (g : Graph R) (orders : List (Order R σ)) (log : List (WriterEvent R σ)) :
    Prop where
  applied : log.filterMap WriterEvent.application? = orders.mapIdx fun i order =>
    ⟨order.unit, g.serially (orders.take i)⟩
  published : ∃ counts : List Nat,
    log.filterMap WriterEvent.published? = counts.map (fun n => g.serially (orders.take n)) ∧
      counts.Pairwise (· < ·) ∧ (∀ n ∈ counts, 0 < n ∧ n ≤ orders.length) ∧
        (orders ≠ [] → counts.getLast? = some orders.length)
  signalled : log.filterMap WriterEvent.signal? = orders.filterMap Order.signal
  shown : ∀ {before after}, log = before ++ after → ∃ n ≤ orders.length,
    (n = 0 ∨ .reported (.published (g.serially (orders.take n))) ∈ before) ∧
      before.filterMap WriterEvent.signal? <+: (orders.take n).filterMap Order.signal

namespace Serializes

theorem nil (g : Graph R) : Serializes g ([] : List (Order R σ)) [] where
  applied := rfl
  published := ⟨[], rfl, .nil, nofun, nofun⟩
  signalled := rfl
  shown h := by
    obtain ⟨rfl, -⟩ := List.nil_eq_append_iff.1 h
    exact ⟨0, le_rfl, .inl rfl, List.prefix_rfl⟩

/-- The graph with all units is published, if there are any. -/
theorem mem_published (H : Serializes g first log) (hfirst : first ≠ []) :
    .reported (.published (g.serially first)) ∈ log := by
  obtain ⟨counts, hgraphs, -, -, hlast⟩ := H.published
  have hmem : g.serially first ∈ log.filterMap WriterEvent.published? := by
    rw [hgraphs]
    refine List.mem_map.2 ⟨first.length, List.mem_of_getLast? (hlast hfirst), ?_⟩
    rw [List.take_length]
  obtain ⟨event, hevent, hpublished⟩ := List.mem_filterMap.1 hmem
  cases event with
  | applied => cases hpublished
  | reported report =>
    cases report with
    | signalled => cases hpublished
    | published =>
      cases hpublished
      exact hevent

theorem published_append (H : Serializes g first log)
    (H' : Serializes (g.serially first) later log') : ∃ counts : List Nat,
    (log ++ log').filterMap WriterEvent.published? =
        counts.map (fun n => g.serially ((first ++ later).take n)) ∧
      counts.Pairwise (· < ·) ∧ (∀ n ∈ counts, 0 < n ∧ n ≤ (first ++ later).length) ∧
        (first ++ later ≠ [] → counts.getLast? = some (first ++ later).length) := by
  obtain ⟨counts, hgraphs, hincrease, hbounds, hlast⟩ := H.published
  obtain ⟨counts', hgraphs', hincrease', hbounds', hlast'⟩ := H'.published
  rw [List.length_append]
  refine ⟨counts ++ counts'.map (first.length + ·), ?_, ?_, ?_, ?_⟩
  · rw [List.filterMap_append, hgraphs, hgraphs', List.map_append, List.map_map]
    congr 1
    · refine List.map_congr_left fun n hn => ?_
      rw [List.take_append_of_le_length (hbounds n hn).2]
    · refine List.map_congr_left fun n _ => ?_
      rw [Function.comp_apply, List.take_length_add_append, Graph.serially_append]
  · rw [List.pairwise_append, List.pairwise_map]
    refine ⟨hincrease, hincrease'.imp fun h => Nat.add_lt_add_left h _, fun n hn m hm => ?_⟩
    obtain ⟨k, hk, rfl⟩ := List.mem_map.1 hm
    have := (hbounds n hn).2
    have := (hbounds' k hk).1
    omega
  · intro n hn
    rcases List.mem_append.1 hn with hn | hn
    · have := hbounds n hn
      omega
    · obtain ⟨k, hk, rfl⟩ := List.mem_map.1 hn
      have := hbounds' k hk
      omega
  · intro hne
    rw [List.getLast?_append, List.getLast?_map]
    by_cases hlater : later = []
    · subst hlater
      have hnone : counts' = [] := List.eq_nil_iff_forall_not_mem.2 fun n hn => by
        have := hbounds' n hn
        simp at this
        omega
      rw [List.append_nil] at hne
      simp [hnone, hlast hne]
    · simp [hlast' hlater]

theorem shown_append (H : Serializes g first log)
    (H' : Serializes (g.serially first) later log') {before after : List (WriterEvent R σ)}
    (h : log ++ log' = before ++ after) : ∃ n ≤ (first ++ later).length,
    (n = 0 ∨ .reported (.published (g.serially ((first ++ later).take n))) ∈ before) ∧
      before.filterMap WriterEvent.signal? <+:
        ((first ++ later).take n).filterMap Order.signal := by
  rw [List.length_append]
  rcases List.append_eq_append_iff.1 h with ⟨between, rfl, hlog'⟩ | ⟨between, hlog, -⟩
  · obtain ⟨n, hn, hshown, hsignals⟩ := H'.shown hlog'
    refine ⟨first.length + n, by omega, ?_, ?_⟩
    · rw [List.take_length_add_append, Graph.serially_append]
      rcases hshown with rfl | hshown
      · by_cases hfirst : first = []
        · exact .inl (by simp [hfirst])
        · exact .inr (List.mem_append_left _ (H.mem_published hfirst))
      · exact .inr (List.mem_append_right _ hshown)
    · rw [List.take_length_add_append, List.filterMap_append, List.filterMap_append,
        H.signalled, List.prefix_append_right_inj]
      exact hsignals
  · obtain ⟨n, hn, hshown⟩ := H.shown hlog
    refine ⟨n, by omega, ?_⟩
    rw [List.take_append_of_le_length hn]
    exact hshown

/-- What the writer does after some units goes on from the graph with these. -/
theorem append (H : Serializes g first log) (H' : Serializes (g.serially first) later log') :
    Serializes g (first ++ later) (log ++ log') where
  applied := by
    rw [List.filterMap_append, H.applied, H'.applied, List.mapIdx_append]
    congr 1
    · refine List.mapIdx_eq_mapIdx_iff.2 fun i hi => ?_
      rw [List.take_append_of_le_length hi.le]
    · refine List.mapIdx_eq_mapIdx_iff.2 fun i _ => ?_
      rw [Nat.add_comm i, List.take_length_add_append, Graph.serially_append]
  published := H.published_append H'
  signalled := by
    rw [List.filterMap_append, List.filterMap_append, H.signalled, H'.signalled]
  shown h := H.shown_append H' h

end Serializes

/-- Applications, then one publication, and signals after that. -/
theorem serializes_published (g : Graph R) {orders : List (Order R σ)} (horders : orders ≠ []) :
    Serializes g orders
      ((orders.mapIdx fun i order => ⟨order.unit, g.serially (orders.take i)⟩).map .applied ++
        (.reported (.published (g.serially orders)) ::
          (orders.filterMap Order.signal).map fun signal => .reported (.signalled signal))) where
  applied := by
    simp only [List.filterMap_append, List.filterMap_cons, List.filterMap_map, Function.comp_def,
      WriterEvent.application?, List.filterMap_none, List.filterMap_some, List.append_nil]
  published := by
    refine ⟨[orders.length], ?_, List.pairwise_singleton _ _, ?_, fun _ => rfl⟩
    · simp only [List.filterMap_append, List.filterMap_cons, List.filterMap_map,
        Function.comp_def, WriterEvent.published?, List.filterMap_none, List.nil_append,
        List.map_singleton, List.take_length]
    · intro n hn
      obtain rfl := List.mem_singleton.1 hn
      exact ⟨List.length_pos_iff.2 horders, le_rfl⟩
  signalled := by
    simp only [List.filterMap_append, List.filterMap_cons, List.filterMap_map, Function.comp_def,
      WriterEvent.signal?, List.filterMap_none, List.filterMap_some, List.nil_append]
  shown := by
    intro before after h
    rcases List.append_eq_append_iff.1 h with ⟨between, rfl, hrest⟩ | ⟨between, happlied, -⟩
    · cases between with
      | nil =>
        refine ⟨0, Nat.zero_le _, .inl rfl, ?_⟩
        simp only [List.append_nil, List.filterMap_map, Function.comp_def, WriterEvent.signal?,
          List.filterMap_none]
        exact List.prefix_rfl
      | cons event between =>
        -- The publication has been made, and some of the signals have been given.
        obtain ⟨rfl, hsignals⟩ := List.cons_eq_cons.1 hrest
        refine ⟨orders.length, le_rfl, .inr ?_, ?_⟩
        · rw [List.take_length]
          exact List.mem_append_right _ List.mem_cons_self
        · have hall := congrArg (List.filterMap WriterEvent.signal?) hsignals
          simp only [List.filterMap_append, List.filterMap_cons, List.filterMap_map,
            Function.comp_def, WriterEvent.signal?, List.filterMap_none, List.filterMap_some,
            List.nil_append, List.take_length, List.append_eq] at hall ⊢
          exact ⟨_, hall.symm⟩
    · -- No signal is among the applications.
      have hnone := congrArg (List.filterMap WriterEvent.signal?) happlied
      simp only [List.filterMap_map, Function.comp_def, WriterEvent.signal?, List.filterMap_none,
        List.filterMap_append] at hnone
      rw [(List.append_eq_nil_iff.1 hnone.symm).1]
      exact ⟨0, Nat.zero_le _, .inl rfl, List.prefix_rfl⟩

theorem serializes_batch (g : Graph R) (commands : List (Command R σ)) :
    Serializes g (orders commands)
      (((Batch.start g).applications commands).map .applied ++
        ((Batch.start g).carryOut commands).reports.map .reported) := by
  rw [Batch.applications_eq, Batch.carryOut_eq, Batch.reports]
  simp only [Batch.start, Nat.zero_add, List.nil_append]
  by_cases horders : orders commands = []
  · rw [horders]
    exact .nil g
  · rw [if_pos (List.length_pos_iff.2 horders), List.map_append, List.map_map]
    exact serializes_published g horders

theorem serializes_writerLog (g : Graph R) (batches : List (List (Command R σ))) :
    Serializes g (orders batches.flatten) (writerLog g batches) := by
  induction batches generalizing g with
  | nil => exact .nil g
  | cons commands rest ih =>
    rw [List.flatten_cons, orders_append, writerLog]
    simp only [Batch.snapshot_eq]
    refine (serializes_batch g commands).append ?_
    rw [show ((Batch.start g).carryOut commands).stopped = stops commands by
      rw [Batch.carryOut_eq]; rfl]
    split
    · exact .nil _
    · exact ih _

/-! ## Versions -/

section
variable {unit : Graph R → Graph R} {orders : List (Order R σ)}

/-- The unit leaves it to the writer to count versions. It is not kept from putting a graph of
another version in the place of the writer's copy. -/
def Graph.KeepsVersion (unit : Graph R → Graph R) : Prop := ∀ g, (unit g).version = g.version

section
variable [Quantity R]

/-- The unit changes graphs by mutations, whichever it decides on. -/
def Graph.Mutating (unit : Graph R → Graph R) : Prop :=
  ∀ g, Relation.ReflTransGen Graph.Mutates g (unit g)

theorem Graph.mutating_run [Geodesy R] (m : Mutation R) : Graph.Mutating m.run :=
  fun g => .single (Graph.mutates_run g m)

theorem Graph.Mutating.keepsVersion (h : Graph.Mutating unit) : Graph.KeepsVersion unit := by
  intro g
  have hmutations := h g
  generalize unit g = next at hmutations
  induction hmutations with
  | refl => rfl
  | tail _ h ih => exact h.version.trans ih

end

theorem Graph.version_serially (h : ∀ order ∈ orders, Graph.KeepsVersion order.unit)
    (g : Graph R) : (g.serially orders).version = g.version + orders.length := by
  induction orders generalizing g with
  | nil => rfl
  | cons order orders ih =>
    have hfirst : (order.unit g).version = g.version := h order List.mem_cons_self g
    refine (ih (fun later hlater => h later (List.mem_cons_of_mem _ hlater)) _).trans ?_
    change (order.unit g).version + 1 + orders.length = g.version + (orders.length + 1)
    omega

/-- Versions count the units that have been applied. -/
structure CountsUp (g : Graph R) (log : List (WriterEvent R σ)) : Prop where
  applied : ∀ {i application}, (log.filterMap WriterEvent.application?)[i]? = some application →
    application.copy.version = g.version + i
  published : ((log.filterMap WriterEvent.published?).map Graph.version).Pairwise (· < ·)

theorem Serializes.countsUp (H : Serializes g orders log)
    (h : ∀ order ∈ orders, Graph.KeepsVersion order.unit) : CountsUp g log where
  applied := by
    intro i application hi
    rw [H.applied, List.getElem?_mapIdx] at hi
    obtain ⟨order, horder, rfl⟩ := Option.map_eq_some_iff.1 hi
    have hlt := (List.getElem?_eq_some_iff.1 horder).1
    rw [Graph.version_serially fun order horder => h order (List.mem_of_mem_take horder)]
    rw [List.length_take, Nat.min_eq_left hlt.le]
  published := by
    obtain ⟨counts, hgraphs, hincrease, hbounds, -⟩ := H.published
    rw [hgraphs, List.map_map, List.pairwise_map]
    refine hincrease.imp_of_mem fun {n m} hn hm hlt => ?_
    have hversion : ∀ n ≤ orders.length,
        (g.serially (orders.take n)).version = g.version + n := by
      intro n hn
      rw [Graph.version_serially fun order horder => h order (List.mem_of_mem_take horder)]
      rw [List.length_take, Nat.min_eq_left hn]
    simp only [Function.comp_apply, hversion n (hbounds n hn).2, hversion m (hbounds m hm).2]
    omega

/-- Whichever batches the writer takes the commands in, it applies the units in front of the first
command to stop one at a time, and reports of them as if each had been published. Versions count
the units, if these leave the counting to the writer. -/
theorem writer_serializes (g : Graph R) (batches : List (List (Command R σ))) :
    (writerLog g batches).filterMap WriterEvent.report? = writerReports g batches ∧
    Serializes g (TripPlanner.orders batches.flatten) (writerLog g batches) ∧
    ((∀ order ∈ TripPlanner.orders batches.flatten, Graph.KeepsVersion order.unit) →
      CountsUp g (writerLog g batches)) :=
  ⟨reports_writerLog g batches, serializes_writerLog g batches,
    (serializes_writerLog g batches).countsUp⟩

end

/-! ## A writer that is told to stop -/

namespace Desk

def build (label : String) (x : ℚ) : Graph ℚ → Graph ℚ :=
  (Mutation.addVertex (.intersection label ⟨x, 0⟩)).run

theorem mutating_build (label : String) (x : ℚ) : Graph.Mutating (build label x) :=
  Graph.mutating_run (.addVertex (.intersection label ⟨x, 0⟩))

/-- Makes room, if there is more than one vertex. -/
def clear (g : Graph ℚ) : Graph ℚ := if g.vertexCount ≤ 1 then g else (g.removeVertex 0).2

theorem mutating_clear : Graph.Mutating clear := by
  intro g
  unfold clear
  split
  · exact .refl
  · exact .single (.removeVertex 0)

/-- The command to stop comes in the middle of a batch. -/
def batches : List (List (Command ℚ String)) :=
  [[.run (build "west" 0) (some "west"), .run (build "east" 1) none],
    [.run clear (some "cleared"), .stop, .run (build "north" 2) (some "north")],
    [.run clear (some "late")]]

theorem serializes_desk :
    ((writerLog .empty batches).filterMap WriterEvent.published?).map
      (fun g => (g.version, g.vertexCount)) = [(2, 2), (3, 1)] ∧
    (writerLog .empty batches).filterMap WriterEvent.signal? = ["west", "cleared"] ∧
    Serializes .empty (orders batches.flatten) (writerLog .empty batches) ∧
    CountsUp .empty (writerLog .empty batches) := by
  obtain ⟨-, hserializes, hcounts⟩ := writer_serializes .empty batches
  refine ⟨by decide, by decide, hserializes, hcounts fun order horder => ?_⟩
  change order ∈ [_, _, _] at horder
  simp only [List.mem_cons, List.not_mem_nil, or_false] at horder
  rcases horder with rfl | rfl | rfl
  · exact (mutating_build "west" 0).keepsVersion
  · exact (mutating_build "east" 1).keepsVersion
  · exact mutating_clear.keepsVersion

/-- The second unit begins anew, with a graph that no unit has been applied to. -/
def resetting : List (List (Command ℚ String)) :=
  [[.run (build "west" 0) none], [.run (fun _ => .empty) none], [.run (build "east" 1) none]]

/-- The third unit is applied to a graph of version 1, and the second graph that is published is of
no later version than the first one. -/
theorem not_countsUp_resetting :
    ((writerLog .empty resetting).filterMap WriterEvent.application?).map
      (fun application => application.copy.version) = [0, 1, 1] ∧
    ((writerLog .empty resetting).filterMap WriterEvent.published?).map Graph.version = [1, 1, 2] ∧
    ¬ CountsUp .empty (writerLog .empty resetting) := by
  have hpublished :
      ((writerLog .empty resetting).filterMap WriterEvent.published?).map Graph.version =
        [1, 1, 2] := by decide
  refine ⟨by decide, hpublished, fun h => ?_⟩
  have hincreases := h.published
  rw [hpublished] at hincreases
  exact absurd hincreases (by decide)

end Desk

end TripPlanner
