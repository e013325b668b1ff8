import TripPlanner.Proofs.Recurrence
import TripPlanner.Proofs.Termination

/-!
# Starvation

Dominance leaves states alone that came by a timed transfer. Timed transfers that lead around in a
circle supply them without end and at no cost, and a search by weight alone does not get to
anything dearer (`Search.Reached.run_found_of_waits`). Boardings after timed transfers are preferred
at any price. Where the estimate is not even they may go on for ever to prune what was boarded
before, at the only vehicle to the destination before it is served there (`Carousel.starves`).
-/

namespace TripPlanner

/-- From each of the vertices an open timed transfer leads to one of them. -/
def Context.Circles {R : Type} (ctx : Context R) (circle : List VertexIndex) : Prop :=
  ∀ v ∈ circle, ∃ e edge, ctx.graph.edge? e = some edge ∧ ctx.graph.isBlocked edge = false ∧
    edge.source = v ∧ edge.kind = .timedTransfer ∧ edge.target ∈ circle

namespace Search

section
variable {R : Type} [Quantity R] [Geodesy R] {ctx : Context R} {search : Search R} {s t : State R}
  {i : StateId} {circle : List VertexIndex}

/-- What came by a timed transfer is not rejected. -/
theorem rejects_of_timedTransfer (h : s.arrivedVia .timedTransfer = true) :
    search.tree.rejects ctx search.store s = false := by
  refine Bool.eq_false_iff.2 fun hrejected => ?_
  obtain ⟨i, -, a, -, hdom⟩ := Tree.rejects_iff.1 hrejected
  have hside := (Context.onSameSide_iff.1 (Context.dominates_iff.1 hdom).1).2.2.2
  rw [h] at hside
  cases hside

/-- What came by a timed transfer is not pruned by what comes later. -/
theorem accept_isPruned_of_timedTransfer (hs : search.store.get? i = some s)
    (h : s.arrivedVia .timedTransfer = true) (hcounts : search.tree.isPruned i = false) :
    (search.accept ctx t).tree.isPruned i = false := by
  refine Bool.eq_false_iff.2 fun hpruned => ?_
  rcases Tree.accept_isPruned.1 hpruned with hold | hbeaten
  · rw [hcounts] at hold
    cases hold
  · obtain ⟨-, a, ha, hdom⟩ := Tree.mem_beaten.1 hbeaten
    cases hs.symm.trans ha
    have hside := (Context.onSameSide_iff.1 (Context.dominates_iff.1 hdom).1).2.2.2
    rw [h] at hside
    cases hside

omit [Geodesy R] in
/-- The next state on the circle has cost no more. -/
theorem exists_successor_of_circles (hcircle : ctx.Circles circle) (hs : s.vertex ∈ circle)
    (id : StateId) : ∃ e t, (e, t) ∈ ctx.successors id s ∧ t.vertex ∈ circle ∧
      t.arrivedVia .timedTransfer = true ∧ t.weight = s.weight + 0 := by
  obtain ⟨e, edge, hedge, hopen, hsource, hkind, htarget⟩ := hcircle _ hs
  have hmoves : ctx.Moves s e edge ⟨0, 0, 0, s.mode, s.plane⟩ := .timedTransfer hkind
  have hmove := hmoves.move? hopen
  refine ⟨e, _, Context.mem_successors_of_move? hedge hsource hmove id, htarget, ?_, rfl⟩
  simp [Edge.edgeClass, hkind, EdgeKind.edgeClass]

end

variable {R : Type} [Field R] [LinearOrder R] [IsStrictOrderedRing R] [FloorRing R] [Geodesy R]
  {ctx : Context R} {search rest : Search R} {s t : State R} {id : StateId} {p : R}
  {circle : List VertexIndex} {n : Nat}

/-- A state on the circle waits that came by a timed transfer and has cost no more than `p`. -/
def Waits (circle : List VertexIndex) (p : R) (search : Search R) : Prop :=
  ∃ w ∈ search.queue.waiting, search.tree.isPruned w.id = false ∧ w.priority ≤ p ∧
    ∃ s ∈ search.store.get? w.id, s.vertex ∈ circle ∧ s.arrivedVia .timedTransfer = true

theorem Waits.accept (H : search.Waits circle p) : (search.accept ctx t).Waits circle p := by
  obtain ⟨w, hw, hcounts, hle, s, hs, hv, htimed⟩ := H
  exact ⟨w, Queue.mem_insertOrdered.2 (.inr hw),
    accept_isPruned_of_timedTransfer hs htimed hcounts, hle, s,
    StateStore.get?_push_of_get? hs, hv, htimed⟩

theorem waits_accept_self (hcons : search.Consistent ctx) (hv : s.vertex ∈ circle)
    (htimed : s.arrivedVia .timedTransfer = true)
    (hle : s.weight + ctx.remainingWeight s.vertex ≤ p) : (search.accept ctx s).Waits circle p := by
  refine ⟨⟨s.weight + ctx.remainingWeight s.vertex, search.store.size⟩,
    Queue.mem_insertOrdered.2 (.inl rfl), ?_, hle, s, StateStore.get?_push_size, hv, htimed⟩
  exact hcons.kept.accept.counts (Tree.mem_accept_at?.2 (.inr ⟨rfl, rfl⟩))

/-- Expanding a state on the circle makes the next one wait. -/
theorem Expanding.waits (H : Expanding ctx id s search) (hcircle : ctx.Circles circle)
    (htrivial : ctx.request.heuristic = .trivial) (hv : s.vertex ∈ circle) (hle : s.weight ≤ p) :
    (search.expand ctx id s).Waits circle p := by
  obtain ⟨e, t, ht, htv, htimed, hweight⟩ := exists_successor_of_circles hcircle hv id
  have htle : t.weight + ctx.remainingWeight t.vertex ≤ p := by
    rw [Context.remainingWeight, htrivial, hweight]
    exact ((add_zero _).trans (add_zero _)).trans_le hle
  let P (done : List (EdgeIndex × State R)) (search : Search R) : Prop :=
    Expanding ctx id s search ∧ ((e, t) ∈ done → search.Waits circle p)
  have hP : P (ctx.successors id s) (search.expand ctx id s) := by
    refine expand_induct ?_ ?_ ?_ ⟨H, fun h => absurd h List.not_mem_nil⟩
    · exact fun done search event h => ⟨h.1.note, h.2⟩
    · rintro done search q hq hrejected ⟨hexp, hwaits⟩
      refine ⟨hexp, fun h => ?_⟩
      rcases List.mem_append.1 h with h | h
      · exact hwaits h
      · cases List.mem_singleton.1 h
        rw [rejects_of_timedTransfer htimed] at hrejected
        cases hrejected
    · rintro done search q hq - ⟨hexp, hwaits⟩
      refine ⟨hexp.accept hq, fun h => ?_⟩
      rcases List.mem_append.1 h with h | h
      · exact (hwaits h).accept
      · cases List.mem_singleton.1 h
        exact waits_accept_self hexp.consistent htv htimed htle
  exact hP.2 ht

/-- The states on the circle take turns at being served. -/
theorem Reached.waits_settle (H : search.Reached ctx) (hcircle : ctx.Circles circle)
    (htrivial : ctx.request.heuristic = .trivial)
    (hfar : ∀ {s}, ctx.Reachable s → ctx.isFinal s = true → p < s.weight)
    (hwaits : search.Waits circle p) (hnext : search.next? = some (id, rest)) :
    (rest.settle ctx id).found = search.found ∧ (rest.settle ctx id).Waits circle p := by
  obtain ⟨w, hw, hcounts, hle, t, ht, hv, htimed⟩ := hwaits
  obtain ⟨hrest, hpopped, s, hs⟩ := H.consistent.next? hnext
  obtain ⟨hstore, htree, hfound⟩ := next?_rest hnext
  have hcost : s.weight ≤ p := by
    have h := (H.served.priority_le hnext (hstore ▸ hs) hw hcounts).trans hle
    rwa [Context.remainingWeight, htrivial, add_zero] at h
  have hfinal : ctx.isFinal s = false := Bool.eq_false_iff.2 fun h =>
    (hfar (hrest.grown.reachable hs) h).not_ge hcost
  have hexp : Expanding ctx id s (rest.note (.visited s)) := ⟨hrest.note, hs, hfinal, hpopped⟩
  rw [settle_eq hs, hfinal, if_neg Bool.false_ne_true]
  refine ⟨expand_found.trans hfound, ?_⟩
  obtain ⟨dropped, first, behind, hwaiting, hdropped, -, rfl, rfl⟩ := next?_eq_some_iff.1 hnext
  rw [hwaiting] at hw
  rcases List.mem_append.1 hw with hw | hw
  · rw [hdropped w hw] at hcounts
    cases hcounts
  rcases List.mem_cons.1 hw with rfl | hw
  · cases hs.symm.trans ht
    exact hexp.waits hcircle htrivial hv hcost
  · refine expand_keeps (P := Waits circle p) (fun _ _ h => h) (fun _ _ _ _ _ h => h.accept) ?_
    exact ⟨w, hw, hcounts, hle, t, ht, hv, htimed⟩

theorem Reached.run_found_of_waits (H : search.Reached ctx) (hcircle : ctx.Circles circle)
    (htrivial : ctx.request.heuristic = .trivial)
    (hfar : ∀ {s}, ctx.Reachable s → ctx.isFinal s = true → p < s.weight)
    (hwaits : search.Waits circle p) : (run ctx n search).1.found = search.found := by
  induction n generalizing search with
  | zero => rw [run_zero_fst]
  | succ n ih =>
    cases hnext : search.advance? ctx with
    | none => rw [run_of_advance?_eq_none hnext]
    | some next =>
      rw [run_of_advance?_eq_some hnext]
      have hreached := H.advance hnext
      obtain ⟨-, id, rest, hpop, rfl⟩ := advance?_eq_some_iff.1 hnext
      obtain ⟨hfound, hwaits'⟩ := H.waits_settle hcircle htrivial hfar hwaits hpop
      rw [ih hreached hwaits', hfound]

end Search

section
variable {R : Type} [Field R] [LinearOrder R] [IsStrictOrderedRing R] [FloorRing R] [Geodesy R]
  {g : Graph R} {request : Request R} {ctx : Context R}

/-- The destination can be reached, and no number of steps is enough to find it. -/
structure Graph.Starves (g : Graph R) (request : Request R) (ctx : Context R) : Prop where
  placed : Context.of request g = .ok ctx
  graphMeasured : g.IsMeasured
  requestMeasured : request.IsMeasured
  reachable : ∃ es s, ctx.Chain (.initial ctx.origin) es s ∧ ctx.isFinal s = true
  lost : ∃ n, ∀ m ≥ n,
    g.findPaths { request with maxSearchSteps := m } = .error .pathNotFound

theorem Context.exists_pathNotFound {n : Nat} (hctx : Context.of request g = .ok ctx)
    (h : ∀ k, (Search.run ctx (n + k) (Search.start ctx)).1.found = []) : ∃ n, ∀ m ≥ n,
      g.findPaths { request with maxSearchSteps := m } = .error .pathNotFound := by
  refine ⟨n, fun m hm => ?_⟩
  obtain ⟨k, rfl⟩ := Nat.exists_eq_add_of_le hm
  rw [findPaths_granting hctx]
  refine findPaths_eq_pathNotFound_iff.2 ?_
  rw [search, run_granting]
  exact h k

end

/-! ## Two stops with a guaranteed change both ways -/

namespace Roundabout

/-- A street from home to work, and two stops near home. -/
def graph : Graph ℚ :=
  .build
    [.intersection "home" ⟨0, 0⟩, .intersection "work" ⟨1, 0⟩, ⟨"a", ⟨0, 1⟩, .transitStop⟩,
      ⟨"b", ⟨0, 2⟩, .transitStop⟩]
    [(0, 1, .street (.plain 1 1000 .pedestrian)), (0, 2, .link 10), (2, 3, .timedTransfer),
      (3, 2, .timedTransfer)]

/-- A walk to work. -/
def request : Request ℚ :=
  { Request.default with
    origin := some ⟨0, 0⟩
    destination := some ⟨1, 0⟩
    walkSpeed := 1
    walkReluctance := 1
    heuristic := .trivial }

/-- The walk placed on the network. -/
def walk : Context ℚ where
  request := request
  graph := graph
  origin := 0
  target := 1
  start := ⟨0, 0⟩
  goal := ⟨1, 0⟩
  maxSpeed := Context.highestSpeed request graph
  minWeightPerSecond := Context.lowestWeight request graph

theorem circles : walk.Circles [2, 3] := by
  intro v hv
  rcases List.mem_pair.1 hv with rfl | rfl
  · exact ⟨2, ⟨2, 2, 3, .timedTransfer⟩, by decide, by decide, rfl, rfl, by decide⟩
  · exact ⟨3, ⟨3, 3, 2, .timedTransfer⟩, by decide, by decide, rfl, rfl, by decide⟩

theorem of_request : Context.of request graph = .ok walk :=
  Context.of_placed (by decide) rfl rfl (by decide +kernel) (by decide +kernel) (by decide)

theorem isMeasured_walk : walk.IsMeasured :=
  Context.isMeasured_of of_request (by decide +kernel) (by decide +kernel)

/-- Only the street leads to work. -/
theorem lt_weight_of_isFinal {s : State ℚ} (hs : walk.Reachable s)
    (hfinal : walk.isFinal s = true) : 10 < s.weight := by
  have htarget : s.vertex = 1 := by
    simp only [Context.isFinal, Bool.and_eq_true, decide_eq_true_eq] at hfinal
    exact hfinal.1.1.1
  have hentries : ∀ p ∈ graph.edges.entries, p.2.target = 1 →
      p.2.kind = .street (.plain 1 1000 .pedestrian) := by decide +kernel
  have hcosts : walk.NeverLowers := isMeasured_walk.neverLowers
  cases hs with
  | origin => cases htarget
  | @step a _ e ha h =>
    obtain ⟨id, edge, move, hedge, -, hmove, rfl⟩ := h.cases
    have hkind := hentries _ (Graph.mem_entries_iff.2 hedge) htarget
    obtain ⟨mode, hmode, -, rfl⟩ := (Context.move?_eq_some_iff.1 hmove).2.of_street hkind
    have hpermits := Context.modeOnStreet?_permits hmode
    obtain rfl : mode = .walk := by cases mode <;> first | rfl | cases hpermits
    have hstreet := Graph.street?_eq_some_iff.2 ⟨edge, hedge, hkind⟩
    have hturn := isMeasured_walk.alongStreet_turn_nonneg hstreet
      (hkind ▸ isMeasured_walk.graph.edges hedge) a .walk
    have hlength : walk.streetWeight (.plain 1 1000 .pedestrian) .walk
        (1000 / walk.streetSpeed (.plain 1 1000 .pedestrian) .walk) = 1000 := by decide +kernel
    have hweight : 0 ≤ a.weight := (hcosts.costs_nonneg ha).2.1
    change 10 < a.weight + (walk.streetWeight (.plain 1 1000 .pedestrian) .walk
      (1000 / walk.streetSpeed (.plain 1 1000 .pedestrian) .walk) + walk.turnDelay a _ .walk _)
    rw [hlength]
    linarith

/-- The street to work waits for as long as the circle supplies cheaper states. -/
theorem starves : graph.Starves request walk where
  placed := of_request
  graphMeasured := isMeasured_walk.graph
  requestMeasured := isMeasured_walk.request
  reachable := Context.exists_final_of_walk? [0] (by decide)
  lost := by
    have hend : (Search.run walk 2 (Search.start walk)).2 = .outOfSteps := by decide +kernel
    have hfound : (Search.run walk 2 (Search.start walk)).1.found = [] := by decide +kernel
    have hwaits : (Search.run walk 2 (Search.start walk)).1.Waits [2, 3] 10 := by
      unfold Search.Waits
      decide +kernel
    refine Context.exists_pathNotFound (n := 2) of_request fun k => ?_
    rw [Search.run_add hend]
    exact (Search.reached_run.run_found_of_waits circles rfl lt_weight_of_isFinal hwaits).trans
      hfound

end Roundabout

/-! ## A rented bicycle that is parked on the way to a stop -/

namespace Detour

/-- The stop `b` is come to from a stop `a` over a guaranteed change, and from a rental station next
to a bicycle park. -/
def graph : Graph ℚ :=
  (Graph.build
    [.intersection "home" ⟨0, 0⟩, .intersection "work" ⟨1, 0⟩,
      ⟨"station", ⟨0, 2⟩, .rentalStation "s"⟩, ⟨"rack", ⟨0, 3⟩, .bikePark⟩,
      ⟨"a", ⟨0, 1⟩, .transitStop⟩, ⟨"b", ⟨1, 1⟩, .transitStop⟩, ⟨"tram", ⟨1, 1⟩, .transitOnboard⟩]
    [(0, 2, .link 10), (2, 2, .rentBike), (2, 3, .link 10), (3, 2, .link 10), (3, 3, .bikePark),
      (2, 2, .dropOffBike), (2, 5, .link 10), (0, 4, .link 10), (4, 5, .timedTransfer),
      (5, 6, .board 0), (6, 1, .alight)]).modifyServices fun services =>
    services.modifyRental fun rental =>
      { rental with
        stations := rental.stations.place "s" ⟨"s", "s", ⟨0, 2⟩, 1, 1, .ofList ["n"]⟩ 2 }

/-- A trip to work with a bicycle that may be rented and has to be parked. -/
def request : Request ℚ :=
  { Roundabout.request with
    modes := .ofList [.walk, .transit]
    allowRental := true
    bikeAndRide := true
    dominance := .minimumWeight }

/-- The trip placed on the network. -/
def trip : Context ℚ where
  request := request
  graph := graph
  origin := 0
  target := 1
  start := ⟨0, 0⟩
  goal := ⟨1, 0⟩
  maxSpeed := Context.highestSpeed request graph
  minWeightPerSecond := Context.lowestWeight request graph

theorem of_request : Context.of request graph = .ok trip :=
  Context.of_placed (by decide) rfl rfl (by decide +kernel) (by decide +kernel) (by decide)

/-- Whoever boards after the change keeps all others from boarding, also those who have parked. -/
theorem starves : graph.Starves request trip where
  placed := of_request
  graphMeasured := by decide
  requestMeasured := by decide +kernel
  reachable := Context.exists_final_of_walk? [0, 1, 2, 4, 3, 5, 6, 9, 10] (by decide)
  lost := by
    have hend : (Search.run trip 40 (Search.start trip)).2 = .exhausted := by decide +kernel
    have hfound : (Search.run trip 40 (Search.start trip)).1.found = [] := by decide +kernel
    refine Context.exists_pathNotFound (n := 40) of_request fun k => ?_
    rw [Search.run_of_le (hend ▸ by decide) (Nat.le_add_right 40 k)]
    exact hfound

end Detour

/-! ## Vehicles that one boards again and again -/

namespace Carousel

/-- From one place to another, by staying on board or by boarding after some seconds. -/
def ride (source target : VertexIndex) (seconds : ℚ) :
    List (VertexIndex × VertexIndex × EdgeKind ℚ) :=
  [(source, target, .hop seconds 0), (source, target, .board seconds)]

/-- What leads away from the half `j` of the pairs of vehicles `A` (2 and 3), `B` (4 and 5) and `C`
(6 and 7) and of the stops at which one may change from them (8 to 13). -/
def half (j k : VertexIndex) : List (VertexIndex × VertexIndex × EdgeKind ℚ) :=
  List.flatten [
    [(2 + j, 2 + k, .board 0), (2 + j, 8 + j, .timedTransfer), (6 + j, 6 + k, .board 0),
      (6 + j, 12 + j, .timedTransfer), (4 + j, 4 + k, .board 0), (4 + j, 10 + j, .timedTransfer),
      (4 + j, 2 + j, .board 3000), (4 + j, 6 + j, .board 3000)],
    ride (8 + j) (2 + j) 1200, ride (12 + j) (6 + j) 1200, ride (10 + j) (2 + k) 4200,
    ride (10 + j) (6 + k) 4200, ride (10 + j) (4 + j) 4200]

/-- Only the vehicle 14 goes to work. The rides cover less ground than there is between their ends,
so that the estimate is misleading. -/
def graph : Graph ℚ :=
  .build
    [.intersection "home" ⟨400000, 0⟩, .intersection "work" ⟨0, 0⟩,
      ⟨"A0", ⟨228000, 0⟩, .transitOnboard⟩, ⟨"A1", ⟨228000, 0⟩, .transitOnboard⟩,
      ⟨"B0", ⟨0, 0⟩, .transitOnboard⟩, ⟨"B1", ⟨0, 0⟩, .transitOnboard⟩,
      ⟨"C0", ⟨184000, 0⟩, .transitOnboard⟩, ⟨"C1", ⟨184000, 0⟩, .transitOnboard⟩,
      ⟨"a0", ⟨246000, 0⟩, .transitStop⟩, ⟨"a1", ⟨246000, 0⟩, .transitStop⟩,
      ⟨"b0", ⟨20000, 0⟩, .transitStop⟩, ⟨"b1", ⟨20000, 0⟩, .transitStop⟩,
      ⟨"c0", ⟨200000, 0⟩, .transitStop⟩, ⟨"c1", ⟨200000, 0⟩, .transitStop⟩,
      ⟨"tram", ⟨300000, 0⟩, .transitOnboard⟩, ⟨"p", ⟨0, 0⟩, .transitStop⟩,
      ⟨"q", ⟨0, 0⟩, .transitStop⟩, ⟨"shuttle", ⟨0, 0⟩, .transitOnboard⟩]
    (List.flatten [
      [(0, 3, .board 18600), (0, 15, .link 3000), (15, 7, .board 13800), (15, 16, .link 9000),
        (16, 17, .board 0), (17, 5, .board 0), (17, 10, .timedTransfer)],
      half 0 1, half 1 0, [(3, 4, .board 0), (6, 5, .board 0)], ride 8 4 1200, ride 13 5 1200,
      ride 8 14 1200, ride 11 14 4200, [(3, 14, .board 0), (4, 14, .board 3000), (14, 1, .alight)]])

/-- A trip to work. -/
def request : Request ℚ :=
  { Request.default with
    origin := some ⟨400000, 0⟩
    destination := some ⟨0, 0⟩
    modes := .ofList [.walk, .transit]
    walkSpeed := 1 }

/-- The trip placed on the network. -/
def trip : Context ℚ := .placed request graph 0 1 ⟨400000, 0⟩ ⟨0, 0⟩

theorem of_request : Context.of request graph = .ok trip :=
  Context.of_placed (by decide) rfl rfl (by decide +kernel) (by decide +kernel) (by decide)

/-- After 14 steps the search does not leave the vehicles and their stops any more, and is where it
was after every 28 steps, at 1200 more of weight. -/
theorem recurs : ∃ o ∈ (Outline.start trip).steps? trip (List.range 18) 14,
    (o.within (List.range' 2 13)).steps? trip (List.range' 2 13) 28 =
      some ((o.within (List.range' 2 13)).delayed (0, 1200, 0)) := by
  decide +kernel

/-- All that boards the tram to work is pruned, by what boards it after a change, before it is
served. -/
theorem starves : graph.Starves request trip where
  placed := of_request
  graphMeasured := by decide +kernel
  requestMeasured := by decide +kernel
  reachable := Context.exists_final_of_walk? [0, 53, 55] (by decide +kernel)
  lost := by
    have hsub : List.range' 2 13 ⊆ List.range 18 := by decide
    exact Context.exists_pathNotFound of_request fun k =>
      Context.found_eq_nil_of_recurs (by decide) hsub (by decide) recurs

end Carousel

/-- No timed transfer starts where one ends. -/
def Graph.ChangesOnce {R : Type} (g : Graph R) : Prop :=
  ∀ p ∈ g.edges.entries, ∀ q ∈ g.edges.entries, p.2.edgeClass = .timedTransfer →
    q.2.edgeClass = .timedTransfer → p.2.target ≠ q.2.source

instance {R : Type} : DecidablePred (Graph.ChangesOnce (R := R)) := fun g =>
  inferInstanceAs (Decidable (∀ p ∈ g.edges.entries, ∀ q ∈ g.edges.entries,
    p.2.edgeClass = .timedTransfer → q.2.edgeClass = .timedTransfer → p.2.target ≠ q.2.source))

/-- A circle of timed transfers lets a search go on for ever without finding a destination that can
be reached, a boarding after a change may hide the only way on which a rented bicycle was parked,
and where the estimate misleads such boardings may hide the only way for ever. -/
theorem Graph.starves_each :
    (Roundabout.graph.Starves Roundabout.request Roundabout.walk ∧
      Roundabout.request.allowRental = false ∧ Roundabout.request.heuristic = .trivial) ∧
    (Detour.graph.Starves Detour.request Detour.trip ∧
      Detour.graph.ChangesOnce ∧ Detour.request.heuristic = .trivial) ∧
    Carousel.graph.Starves Carousel.request Carousel.trip ∧
      Carousel.graph.ChangesOnce ∧ Carousel.request.allowRental = false :=
  ⟨⟨Roundabout.starves, rfl, rfl⟩, ⟨Detour.starves, by decide, rfl⟩, Carousel.starves, by decide,
    rfl⟩

end TripPlanner
