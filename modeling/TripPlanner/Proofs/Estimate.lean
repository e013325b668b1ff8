import TripPlanner.Proofs.Boarding
import TripPlanner.Proofs.Construction
import TripPlanner.Proofs.Measures
import TripPlanner.Proofs.Serving

/-!
# The estimate

The weight that `Context.remainingWeight` estimates by the distance to the destination never falls
by more than what an edge costs. An edge covers the ground between its ends, nobody goes faster than
`Context.highestSpeed`, and no second of a move weighs less than `Context.lowestWeight`
(`Context.IsEstimable.distance_le_cost`); the rest is the triangle inequality.
-/

namespace TripPlanner

variable {R : Type} [Field R] [LinearOrder R] [IsStrictOrderedRing R] [FloorRing R]

/-- The distance along the ground is a metric, or would be if no point had two names. -/
structure Geodesy.IsMetric (R : Type) [Field R] [LinearOrder R] [Geodesy R] : Prop where
  self : ∀ p : Point R, Geodesy.groundDistance p p = 0
  comm : ∀ p q : Point R, Geodesy.groundDistance p q = Geodesy.groundDistance q p
  triangle : ∀ p q r : Point R,
    Geodesy.groundDistance p r ≤ Geodesy.groundDistance p q + Geodesy.groundDistance q r

theorem Geodesy.IsMetric.nonneg [Geodesy R] (H : IsMetric R) (p q : Point R) :
    0 ≤ Geodesy.groundDistance p q := by
  have h := H.triangle p q p
  rw [H.self, H.comm q p] at h
  linarith

/-- Cars have some speed, rides take some time, and neither waiting nor the factor on the cost of
cycling is negative. -/
def EdgeKind.IsTimed : EdgeKind R → Prop
  | .street s => 0 < s.carSpeed ∧ 0 ≤ s.bicycleSafety
  | .board wait => 0 ≤ wait
  | .hop duration _ => 0 < duration
  | _ => True

instance : DecidablePred (EdgeKind.IsTimed (R := R))
  | .street s => inferInstanceAs (Decidable (0 < s.carSpeed ∧ 0 ≤ s.bicycleSafety))
  | .board wait => inferInstanceAs (Decidable (0 ≤ wait))
  | .hop duration _ => inferInstanceAs (Decidable (0 < duration))
  | .link _ | .parkAndRide | .rentBike | .dropOffBike | .bikePark | .alight | .transfer _
  | .timedTransfer => .isTrue trivial

/-- Every edge covers the ground between its ends. -/
def Graph.CoversGround [Geodesy R] (g : Graph R) : Prop :=
  ∀ p ∈ g.edges.entries, ∀ a ∈ g.vertex? p.2.source, ∀ b ∈ g.vertex? p.2.target,
    Geodesy.groundDistance a.position b.position ≤ p.2.distance

instance [Geodesy R] : DecidablePred (Graph.CoversGround (R := R)) := fun g =>
  inferInstanceAs (Decidable (∀ p ∈ g.edges.entries, ∀ a ∈ g.vertex? p.2.source,
    ∀ b ∈ g.vertex? p.2.target, Geodesy.groundDistance a.position b.position ≤ p.2.distance))

/-- Every edge takes its time and covers the ground between its ends. -/
structure Graph.Spans [Geodesy R] (g : Graph R) : Prop where
  timed : ∀ p ∈ g.edges.entries, p.2.kind.IsTimed
  covers : g.CoversGround

instance [Geodesy R] : DecidablePred (Graph.Spans (R := R)) := fun g =>
  decidable_of_iff ((∀ p ∈ g.edges.entries, p.2.kind.IsTimed) ∧ g.CoversGround)
    ⟨fun ⟨htimed, hcovers⟩ => ⟨htimed, hcovers⟩, fun ⟨htimed, hcovers⟩ => ⟨htimed, hcovers⟩⟩

theorem Graph.CoversGround.distance_nonneg [Geodesy R] {g : Graph R} (H : g.CoversGround)
    (hmetric : Geodesy.IsMetric R) (hbounded : g.Bounded) {e : EdgeIndex} {edge : Edge R}
    (hedge : g.edge? e = some edge) : 0 ≤ edge.distance := by
  obtain ⟨hsource, htarget⟩ := hbounded.ends hedge
  obtain ⟨u, hu⟩ := Arena.contains_iff.1 hsource
  obtain ⟨v, hv⟩ := Arena.contains_iff.1 htarget
  exact (hmetric.nonneg _ _).trans (H _ (Graph.mem_entries_iff.2 hedge) u hu v hv)

/-- No length is negative where every edge covers the ground between its ends. -/
theorem Graph.Spans.isMeasured [Geodesy R] {g : Graph R} (H : g.Spans)
    (hmetric : Geodesy.IsMetric R) (hbounded : g.Bounded)
    (hdirections : ∀ {e f source target}, g.street? e = some source → g.street? f = some target →
      |target.endAngle - source.startAngle| ≤ 360) : g.IsMeasured where
  directions := hdirections
  edges {e edge} hedge := by
    have hdistance : 0 ≤ edge.kind.distance := H.covers.distance_nonneg hmetric hbounded hedge
    have htimed : edge.kind.IsTimed := H.timed _ (Graph.mem_entries_iff.2 hedge)
    cases hkind : edge.kind with
    | street s =>
      rw [hkind] at hdistance htimed
      exact ⟨hdistance, htimed⟩
    | link _ | transfer _ =>
      rw [hkind] at hdistance
      exact hdistance
    | board _ =>
      rw [hkind] at htimed
      exact htimed
    | hop _ _ =>
      rw [hkind] at htimed
      exact le_of_lt htimed
    | _ => trivial

/-! ## Paces -/

theorem cyclingWeight_mono {optimize : Optimize} {triangle : Triangle R} {safer safety : R}
    (htriangle : 0 ≤ triangle.safety) (hsafety : 0 ≤ safety) (hle : safer ≤ safety) :
    cyclingWeight optimize triangle safer ≤ cyclingWeight optimize triangle safety := by
  have hbonus : (0 : R) ≤ greenwayBonus := Quantity.ratio_nonneg (by decide) (by decide)
  have hbonus' : (greenwayBonus : R) ≤ 1 := by
    rw [greenwayBonus, Quantity.ratio, Quantity.ofInt_eq_cast, Quantity.ofInt_eq_cast]
    norm_num
  unfold cyclingWeight
  cases optimize with
  | quick => exact le_rfl
  | safe => exact hle
  | greenways =>
    dsimp only
    split_ifs with hsafer hgreen hgreen
    · exact mul_le_mul_of_nonneg_right hle hbonus
    · -- A safer street may be a greenway where the other one is none.
      have h : safer * greenwayBonus ≤ safety * greenwayBonus :=
        mul_le_mul_of_nonneg_right hle hbonus
      exact h.trans (mul_le_of_le_one_right hsafety hbonus')
    · exact absurd (hle.trans hgreen) hsafer
    · exact hle
  | triangle =>
    have h : safer * triangle.safety ≤ safety * triangle.safety :=
      mul_le_mul_of_nonneg_right hle htriangle
    dsimp only
    linarith

/-- Who goes slower, and at more weight a second, spends more on the same way. -/
theorem pace_le {length speed top weight least : R} (hlength : 0 ≤ length) (hspeed : 0 < speed)
    (hle : speed ≤ top) (hleast : 0 ≤ least) (hweight : least ≤ weight) :
    length / top * least ≤ length / speed * weight :=
  mul_le_mul (div_le_div_of_nonneg_left hlength hspeed hle) hweight hleast
    (div_nonneg hlength hspeed.le)

namespace Context

theorem maxVehicleSpeed_eq : (maxVehicleSpeed : R) = 40 := by
  rw [maxVehicleSpeed, Quantity.ofInt_eq_cast]
  norm_num

theorem defaultCarSpeed_le : (defaultCarSpeed : R) ≤ maxVehicleSpeed := by
  rw [maxVehicleSpeed_eq, defaultCarSpeed, Quantity.ratio, Quantity.ofInt_eq_cast,
    Quantity.ofInt_eq_cast]
  norm_num

/-- No second of cycling weighs less, where the bounds allow for the street. -/
theorem lowestWeight_le_cyclingWeight {request : Request R} {g : Graph R} {safety : R}
    (hcycles : (request.modes.bicycle || request.allowRental) = true)
    (hshares : request.triangle.IsNonneg) (hbound : g.bounds.minBicycleSafety ≤ safety)
    (hsafety : 0 ≤ safety) :
    lowestWeight request g ≤ cyclingWeight request.optimize request.triangle safety := by
  rw [lowestWeight, if_pos hcycles]
  refine max_le ?_ (hshares.cyclingWeight_nonneg hsafety)
  exact (min_le_right _ _).trans (cyclingWeight_mono hshares.safety hsafety hbound)

/-- The request can make somebody cycle. -/
abbrev Cycles (ctx : Context R) : Prop :=
  (ctx.request.modes.bicycle || ctx.request.allowRental) = true

/-- What the estimate relies on. -/
structure IsEstimable [Geodesy R] (ctx : Context R) : Prop extends ctx.IsMeasured where
  metric : Geodesy.IsMetric R
  bounded : ctx.graph.Bounded
  spans : ctx.graph.Spans
  walkSpeed_le : ctx.request.walkSpeed ≤ maxVehicleSpeed
  bikeSpeed_le : ctx.request.bikeSpeed ≤ maxVehicleSpeed
  maxSpeed_eq : ctx.maxSpeed = highestSpeed ctx.request ctx.graph
  minWeight_eq : ctx.minWeightPerSecond = lowestWeight ctx.request ctx.graph

variable {ctx : Context R} {s a b : State R} {e : EdgeIndex} {edge : Edge R}
  {street : Street R} {mode : Mode} {move : Move R} {safety length : R} {plane : Plane}

theorem Reachable.cycles_of_streetMode (H : ctx.Reachable s)
    (h : s.streetMode ctx.request = .bicycle) : ctx.Cycles := by
  rw [Cycles, Bool.or_eq_true]
  exact (bicycle_of_streetMode h).symm.imp And.left H.entitled.rent

namespace IsEstimable

variable [Geodesy R]

/-! ## The highest speed -/

theorem vehicles_le (H : ctx.IsEstimable)
    (h : ctx.request.modes.car = true ∨ ctx.request.modes.transit = true) :
    maxVehicleSpeed ≤ ctx.maxSpeed ∧ ctx.graph.bounds.maxCarSpeed ≤ ctx.maxSpeed ∧
      ctx.graph.bounds.maxTransitSpeed ≤ ctx.maxSpeed := by
  rw [← Bool.or_eq_true] at h
  rw [H.maxSpeed_eq, highestSpeed, if_pos h]
  exact ⟨(le_max_left _ _).trans (le_max_left _ _), (le_max_right _ _).trans (le_max_left _ _),
    le_max_right _ _⟩

theorem ownSpeed_le (H : ctx.IsEstimable) (hmode : mode = .bicycle → ctx.Cycles) :
    Move.ownSpeed ctx.request mode ≤ ctx.maxSpeed := by
  have hvehicle : Move.ownSpeed ctx.request mode ≤ maxVehicleSpeed := by
    unfold Move.ownSpeed
    split
    · exact H.bikeSpeed_le
    · exact H.walkSpeed_le
  rw [H.maxSpeed_eq]
  unfold highestSpeed
  split
  · exact hvehicle.trans ((le_max_left _ _).trans (le_max_left _ _))
  · unfold Move.ownSpeed
    by_cases hcycles : ctx.Cycles
    · rw [if_pos hcycles]
      split
      · exact le_max_left _ _
      · exact le_max_right _ _
    · rw [if_neg hcycles, if_neg fun h => hcycles (hmode h)]

theorem walkSpeed_le_maxSpeed (H : ctx.IsEstimable) : ctx.request.walkSpeed ≤ ctx.maxSpeed := by
  have h : Move.ownSpeed ctx.request .walk ≤ ctx.maxSpeed := H.ownSpeed_le fun h => nomatch h
  exact h

theorem maxSpeed_pos (H : ctx.IsEstimable) : 0 < ctx.maxSpeed :=
  H.walkSpeed.trans_le H.walkSpeed_le_maxSpeed

/-! ## The lowest weight -/

theorem minWeight_nonneg (H : ctx.IsEstimable) : 0 ≤ ctx.minWeightPerSecond := by
  rw [H.minWeight_eq]
  exact le_max_right _ _

theorem minWeight_le_onFoot (H : ctx.IsEstimable) :
    ctx.minWeightPerSecond ≤ min ctx.request.walkReluctance 1 := by
  have hone : (Quantity.one : R) = 1 := by rw [Quantity.one, Quantity.ofInt_eq_cast, Int.cast_one]
  rw [H.minWeight_eq, lowestWeight, hone]
  refine max_le ?_ (le_min H.request.walkReluctance zero_le_one)
  split
  · exact min_le_left _ _
  · exact le_rfl

theorem minWeight_le_cycling (H : ctx.IsEstimable) (hcycles : ctx.Cycles)
    (hbound : ctx.graph.bounds.minBicycleSafety ≤ street.bicycleSafety)
    (hsafety : 0 ≤ street.bicycleSafety) : ctx.minWeightPerSecond ≤
      cyclingWeight ctx.request.optimize ctx.request.triangle street.bicycleSafety := by
  rw [H.minWeight_eq]
  exact lowestWeight_le_cyclingWeight hcycles H.request.shares hbound hsafety

/-! ## What an edge costs -/

theorem along_cost_le (H : ctx.IsEstimable) {speed : R} (hlength : 0 ≤ length)
    (hspeed : 0 < speed) (hle : speed ≤ ctx.maxSpeed) :
    length / ctx.maxSpeed * ctx.minWeightPerSecond ≤
      (Move.along ctx.request plane mode length speed).cost := by
  have honFoot := le_min_iff.1 H.minWeight_le_onFoot
  unfold Move.along
  dsimp only
  split
  · exact pace_le hlength hspeed hle H.minWeight_nonneg honFoot.1
  · have h := pace_le hlength hspeed hle H.minWeight_nonneg honFoot.2
    rwa [mul_one] at h

theorem alongStreet_cost_le (H : ctx.IsEstimable) (hs : ctx.Reachable s)
    (hedge : ctx.graph.edge? e = some edge) (hkind : edge.kind = .street street)
    (hmode : ctx.modeOnStreet? s street = some mode) :
    street.length / ctx.maxSpeed * ctx.minWeightPerSecond ≤
      (ctx.alongStreet s street mode).cost := by
  have hmeasured : (EdgeKind.street street).IsMeasured := hkind ▸ H.graph.edges hedge
  have hcovers : ctx.graph.bounds.Covers (.street street) := hkind ▸ H.bounded.covers hedge
  have hpermits := modeOnStreet?_permits hmode
  have hcycles : mode = .bicycle → ctx.Cycles := by
    rintro rfl
    exact hs.cycles_of_streetMode (modeOnStreet?_eq_streetMode hmode (by decide))
  have hspeed : ctx.streetSpeed street mode ≤ ctx.maxSpeed := by
    unfold streetSpeed
    split
    · subst mode
      have hcar := streetMode_eq_car_iff.1 (modeOnStreet?_eq_streetMode hmode (by decide))
      exact (hcovers.1 hpermits).trans (H.vehicles_le (.inl hcar.2.1)).2.1
    · exact H.ownSpeed_le hcycles
  have hpace : ∀ {weight}, ctx.minWeightPerSecond ≤ weight →
      street.length / ctx.maxSpeed * ctx.minWeightPerSecond ≤
        street.length / ctx.streetSpeed street mode * weight :=
    pace_le hmeasured.1 (H.streetSpeed_pos hmeasured.2.1) hspeed H.minWeight_nonneg
  have honFoot := le_min_iff.1 H.minWeight_le_onFoot
  refine le_add_of_le_of_nonneg ?_ (H.alongStreet_turn_nonneg
    (Graph.street?_eq_some_iff.2 ⟨edge, hedge, hkind⟩) hmeasured s mode)
  cases mode with
  | walk => exact hpace honFoot.1
  | bicycle =>
    exact hpace (H.minWeight_le_cycling (hcycles rfl) (hcovers.2 hpermits) hmeasured.2.2)
  | car | transit => exact (hpace honFoot.2).trans_eq (mul_one _)

/-- An edge costs no less than the ground that it covers, at the highest speed and the lowest
weight. -/
theorem distance_le_cost (H : ctx.IsEstimable) (hs : ctx.Reachable s)
    (hedge : ctx.graph.edge? e = some edge) (hmove : ctx.move? s e edge = some move)
    (hdistance : 0 ≤ edge.distance) :
    edge.distance / ctx.maxSpeed * ctx.minWeightPerSecond ≤ move.cost := by
  have hkinds : edge.distance = edge.kind.distance := rfl
  have hmeasured := H.graph.edges hedge
  have hspan := H.spans.timed _ (Graph.mem_entries_iff.2 hedge)
  have hcovers := H.bounded.covers hedge
  have hconstant : ∀ i : Int, 0 ≤ i → (0 : R) ≤ Quantity.ofInt i := fun _ => Quantity.ofInt_nonneg
  -- Where no ground is covered, it is enough that the move costs something.
  have hstays : ∀ {cost : R}, edge.distance = 0 → 0 ≤ cost →
      edge.distance / ctx.maxSpeed * ctx.minWeightPerSecond ≤ cost := by
    intro cost hzero hcost
    rw [hzero, zero_div, zero_mul]
    exact hcost
  cases (move?_eq_some_iff.1 hmove).2 with
  | street hkind hmode =>
    rw [hkinds, hkind]
    exact H.alongStreet_cost_le hs hedge hkind hmode
  | link hkind =>
    rw [hkinds, hkind]
    rw [hkind] at hmeasured
    refine H.along_cost_le hmeasured H.linkSpeed_pos ?_
    unfold linkSpeed
    split
    · rename_i hcar
      exact defaultCarSpeed_le.trans (H.vehicles_le (.inl (streetMode_eq_car_iff.1 hcar).2.1)).1
    · exact H.ownSpeed_le hs.cycles_of_streetMode
  | parkCar hkind | rentBike hkind | dropOffBike hkind | parkBike hkind =>
    exact hstays (by rw [hkinds, hkind]; rfl) (hconstant _ (by decide))
  | board hkind =>
    rw [hkind] at hmeasured
    exact hstays (by rw [hkinds, hkind]; rfl) (add_nonneg hmeasured (hconstant _ (by decide)))
  | @hop duration length hkind haboard =>
    rw [hkind] at hspan hcovers
    rw [hkinds, hkind] at hdistance ⊢
    -- A ride is no faster than the fastest one.
    have hrides := (H.vehicles_le (.inr (hs.entitled.board haboard))).2.2
    have hspeed : length / duration ≤ ctx.maxSpeed := (hcovers hspan).trans hrides
    have honFoot := le_min_iff.1 H.minWeight_le_onFoot
    have htop : 0 < ctx.maxSpeed := H.maxSpeed_pos
    have htime : length / ctx.maxSpeed ≤ duration := by
      rwa [div_le_iff₀ htop, mul_comm, ← div_le_iff₀ hspan]
    calc length / ctx.maxSpeed * ctx.minWeightPerSecond
        ≤ length / ctx.maxSpeed * 1 :=
          mul_le_mul_of_nonneg_left honFoot.2 (div_nonneg hdistance htop.le)
      _ ≤ duration := by rwa [mul_one]
  | alight hkind | timedTransfer hkind => exact hstays (by rw [hkinds, hkind]; rfl) le_rfl
  | transfer hkind =>
    rw [hkinds, hkind]
    rw [hkind] at hmeasured
    exact H.along_cost_le hmeasured H.walkSpeed H.walkSpeed_le_maxSpeed

end IsEstimable

/-! ## Consistency -/

/-- The estimate falls by no more than what an edge costs, so that it never exceeds what is still to
come. -/
structure EstimatesConsistently [Geodesy R] (ctx : Context R) : Prop where
  step : ∀ {a e b}, ctx.Reachable a → ctx.Follows a e b →
    ctx.remainingWeight a.vertex ≤ b.weight - a.weight + ctx.remainingWeight b.vertex
  chain : ∀ {a es b}, ctx.Reachable a → ctx.Chain a es b → b.vertex = ctx.target →
    ctx.remainingWeight a.vertex ≤ b.weight - a.weight

namespace IsEstimable

variable [Geodesy R]

theorem remainingWeight_target (H : ctx.IsEstimable) : ctx.remainingWeight ctx.target = 0 := by
  unfold remainingWeight
  split
  · rfl
  · split
    · rename_i here there hhere hthere
      cases hhere.symm.trans hthere
      rw [H.metric.self, zero_div, zero_mul]
    · rfl

theorem remainingWeight_le (H : ctx.IsEstimable) (ha : ctx.Reachable a) (h : ctx.Follows a e b) :
    ctx.remainingWeight a.vertex ≤ b.weight - a.weight + ctx.remainingWeight b.vertex := by
  have hnonneg : 0 ≤ b.weight - a.weight := sub_nonneg.2 (H.neverLowers ha h).2.1
  obtain ⟨id, edge, move, hedge, hsource, hmove, rfl⟩ := h.cases
  have hcost : (a.after id e edge move).weight - a.weight = move.cost := add_sub_cancel_left _ _
  obtain ⟨hasource, hatarget⟩ := H.bounded.ends hedge
  obtain ⟨u, hu⟩ := Arena.contains_iff.1 hasource
  obtain ⟨v, hv⟩ := Arena.contains_iff.1 hatarget
  rw [hcost] at hnonneg ⊢
  rw [State.after_vertex, ← hsource]
  simp only [remainingWeight, Graph.vertex?, hu, hv]
  cases ctx.request.heuristic with
  | trivial => exact add_nonneg hnonneg le_rfl
  | euclidean =>
    cases ctx.graph.vertices.get? ctx.target with
    | none => exact add_nonneg hnonneg le_rfl
    | some goal =>
      have hground := H.spans.covers _ (Graph.mem_entries_iff.2 hedge) u hu v hv
      have hdistance := H.spans.covers.distance_nonneg H.metric H.bounded hedge
      have hpace : 0 ≤ ctx.minWeightPerSecond / ctx.maxSpeed :=
        div_nonneg H.minWeight_nonneg H.maxSpeed_pos.le
      have htriangle := mul_le_mul_of_nonneg_right
        ((H.metric.triangle u.position v.position goal.position).trans
          (add_le_add_left hground _)) hpace
      have hedge := H.distance_le_cost ha hedge hmove hdistance
      simp only [div_mul_eq_mul_div, mul_div_assoc] at hedge ⊢
      linarith

/-- Who covers no ground is estimated to be as far from the destination as before. -/
theorem remainingWeight_eq_of_distance (H : ctx.IsEstimable)
    (hedge : ctx.graph.edge? e = some edge) (hzero : edge.distance = 0) :
    ctx.remainingWeight edge.source = ctx.remainingWeight edge.target := by
  obtain ⟨hsource, htarget⟩ := H.bounded.ends hedge
  obtain ⟨u, hu⟩ := Arena.contains_iff.1 hsource
  obtain ⟨v, hv⟩ := Arena.contains_iff.1 htarget
  have hground := H.spans.covers _ (Graph.mem_entries_iff.2 hedge) u hu v hv
  rw [hzero] at hground
  have hsame : ∀ p, Geodesy.groundDistance u.position p = Geodesy.groundDistance v.position p := by
    intro p
    have hthere := H.metric.triangle u.position v.position p
    have hback := H.metric.triangle v.position u.position p
    rw [H.metric.comm v.position u.position] at hback
    exact le_antisymm (by linarith) (by linarith)
  simp only [remainingWeight, Graph.vertex?, hu, hv]
  cases ctx.graph.vertices.get? ctx.target with
  | none => rfl
  | some goal => simp only [hsame]

/-- The estimate is even where every edge takes its time and covers its ground. -/
theorem estimatesEvenly (H : ctx.IsEstimable) : ctx.EstimatesEvenly where
  rises {a e b} ha h := by
    have hle := H.remainingWeight_le ha h
    linarith
  level {e edge} hedge _ hclass := by
    refine H.remainingWeight_eq_of_distance hedge ?_
    unfold Edge.edgeClass at hclass
    unfold Edge.distance
    cases hkind : edge.kind with
    | board | timedTransfer => rfl
    | _ => simp [hkind, EdgeKind.edgeClass] at hclass

/-- What holds of the estimate from edge to edge holds of it on the way to the destination. -/
theorem remainingWeight_le_of_chain (H : ctx.IsEstimable) (ha : ctx.Reachable a)
    {es : List EdgeIndex} (h : ctx.Chain a es b) (hb : b.vertex = ctx.target) :
    ctx.remainingWeight a.vertex ≤ b.weight - a.weight := by
  induction h with
  | nil => rw [hb, H.remainingWeight_target, sub_self]
  | cons hstep _ ih =>
    have hfirst := H.remainingWeight_le ha hstep
    have hrest := ih (ha.step hstep) hb
    linarith

end IsEstimable

variable {g : Graph R} {request : Request R}

theorem isEstimable_of [Geodesy R] (hctx : Context.of request g = .ok ctx)
    (hmetric : Geodesy.IsMetric R) (hbuilt : g.Built) (hspans : g.Spans)
    (hdirections : ∀ {e f source target}, g.street? e = some source → g.street? f = some target →
      |target.endAngle - source.startAngle| ≤ 360)
    (hrequest : request.IsMeasured) (hwalk : request.walkSpeed ≤ 40)
    (hbike : request.bikeSpeed ≤ 40) : ctx.IsEstimable := by
  have hmeasured := hspans.isMeasured hmetric hbuilt.bounded hdirections
  have hestimated := isMeasured_of hctx hmeasured hrequest
  obtain ⟨triangle, hplaced⟩ := request_of hctx
  obtain ⟨-, _, _, -, -, _, _, -, -, rfl⟩ := of_eq_ok_iff.1 hctx
  refine { hestimated with
    metric := hmetric
    bounded := hbuilt.bounded
    spans := hspans
    walkSpeed_le := ?_
    bikeSpeed_le := ?_
    maxSpeed_eq := rfl
    minWeight_eq := rfl }
  · rw [hplaced, maxVehicleSpeed_eq]
    exact hwalk
  · rw [hplaced, maxVehicleSpeed_eq]
    exact hbike

/-- On a graph whose edges cover the ground between their ends, and for a request that is not faster
than vehicles, the estimate is consistent. -/
theorem estimatesConsistently_of [Geodesy R] (hctx : Context.of request g = .ok ctx)
    (hmetric : Geodesy.IsMetric R) (hbuilt : g.Built) (hspans : g.Spans)
    (hdirections : ∀ {e f source target}, g.street? e = some source → g.street? f = some target →
      |target.endAngle - source.startAngle| ≤ 360)
    (hrequest : request.IsMeasured) (hwalk : request.walkSpeed ≤ 40)
    (hbike : request.bikeSpeed ≤ 40) : ctx.EstimatesConsistently := by
  have H := isEstimable_of hctx hmetric hbuilt hspans hdirections hrequest hwalk hbike
  exact ⟨H.remainingWeight_le, fun ha h => H.remainingWeight_le_of_chain ha h⟩

end Context

/-! ## A tram to work -/

theorem Geodesy.isMetric_rat : Geodesy.IsMetric ℚ where
  self p := by simp [Geodesy.groundDistance]
  comm p q := by simp [Geodesy.groundDistance, abs_sub_comm]
  triangle p q r := by
    have hx := abs_sub_le p.x q.x r.x
    have hy := abs_sub_le p.y q.y r.y
    change |p.x - r.x| + |p.y - r.y| ≤ |p.x - q.x| + |p.y - q.y| + (|q.x - r.x| + |q.y - r.y|)
    linarith

namespace Tramway

/-- The vertices of the network. -/
def vertices : List (Vertex ℚ) :=
  [.intersection "home" ⟨0, 0⟩, .intersection "work" ⟨4000, 0⟩, ⟨"a", ⟨0, 30⟩, .transitStop⟩,
    ⟨"tram at a", ⟨0, 30⟩, .transitOnboard⟩, ⟨"tram at b", ⟨4000, 30⟩, .transitOnboard⟩,
    ⟨"b", ⟨4000, 30⟩, .transitStop⟩]

/-- A street with a bend, and a tram at the highest speed that vehicles are taken to have. -/
def edges : List (VertexIndex × VertexIndex × EdgeKind ℚ) :=
  [(0, 1, .street (.plain 1 5000 .allStreet)), (0, 2, .link 30), (2, 3, .board 60),
    (3, 4, .hop 100 4000), (4, 5, .alight), (5, 1, .link 30)]

/-- The network. -/
def graph : Graph ℚ := .build vertices edges

/-- A trip to work, on foot or by tram. -/
def request : Request ℚ :=
  { Request.default with
    origin := some ⟨0, 0⟩
    destination := some ⟨4000, 0⟩
    modes := .ofList [.walk, .transit]
    dominance := .minimumWeight }

/-- The trip placed on the network. -/
def trip : Context ℚ := .placed request graph 0 1 ⟨0, 0⟩ ⟨4000, 0⟩

theorem of_request : Context.of request graph = .ok trip :=
  Context.of_placed (by decide +kernel) rfl rfl (by decide +kernel) (by decide +kernel) (by decide)

theorem built_graph : graph.Built := Graph.built_build (by decide)

theorem isMeasured_graph : graph.IsMeasured := by decide +kernel

/-- At home the estimate is what the ride alone will weigh. -/
theorem estimatesConsistently : trip.remainingWeight 0 = 100 ∧ trip.EstimatesConsistently :=
  ⟨by decide +kernel, Context.estimatesConsistently_of of_request Geodesy.isMetric_rat built_graph
    (by decide +kernel) isMeasured_graph.directions (by decide +kernel) (by decide +kernel)
    (by decide)⟩

end Tramway

end TripPlanner
