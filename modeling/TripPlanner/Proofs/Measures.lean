import TripPlanner.Proofs.Shares
import TripPlanner.Proofs.Situations

/-!
# Measures

Where lengths, waits, durations and the weights of a request are not negative and all speeds are
positive, following an edge never lowers what a trip has cost (`Context.neverLowers`).
-/

namespace TripPlanner

variable {R : Type} [Field R] [LinearOrder R] [IsStrictOrderedRing R] [FloorRing R]
  {g : Graph R} {request : Request R} {ctx : Context R} {s : State R} {e : EdgeIndex}
  {edge : Edge R} {street source target : Street R} {mode : Mode} {move : Move R} {speed : R}

/-- Lengths, waits and durations are not negative, nor is the factor on the cost of cycling, and
cars have some speed. -/
def EdgeKind.IsMeasured : EdgeKind R → Prop
  | .street s => 0 ≤ s.length ∧ 0 < s.carSpeed ∧ 0 ≤ s.bicycleSafety
  | .link length => 0 ≤ length
  | .transfer length => 0 ≤ length
  | .board wait => 0 ≤ wait
  | .hop duration _ => 0 ≤ duration
  | _ => True

/-- All edges are measured, and no two directions of streets are more than a full circle apart. -/
structure Graph.IsMeasured (g : Graph R) : Prop where
  edges : ∀ {e edge}, g.edge? e = some edge → edge.kind.IsMeasured
  directions : ∀ {e f source target}, g.street? e = some source → g.street? f = some target →
    |target.endAngle - source.startAngle| ≤ 360

instance : DecidablePred (EdgeKind.IsMeasured (R := R))
  | .street s => inferInstanceAs (Decidable (0 ≤ s.length ∧ 0 < s.carSpeed ∧ 0 ≤ s.bicycleSafety))
  | .link length => inferInstanceAs (Decidable (0 ≤ length))
  | .transfer length => inferInstanceAs (Decidable (0 ≤ length))
  | .board wait => inferInstanceAs (Decidable (0 ≤ wait))
  | .hop duration _ => inferInstanceAs (Decidable (0 ≤ duration))
  | .parkAndRide | .rentBike | .dropOffBike | .bikePark | .alight | .timedTransfer =>
    .isTrue trivial

theorem Graph.isMeasured_iff : g.IsMeasured ↔
    (∀ p ∈ g.edges.entries, p.2.kind.IsMeasured) ∧
      ∀ p ∈ g.edges.entries, ∀ q ∈ g.edges.entries, ∀ source ∈ p.2.street?,
        ∀ target ∈ q.2.street?, |target.endAngle - source.startAngle| ≤ 360 := by
  constructor
  · rintro ⟨hedges, hdirections⟩
    have hstreet : ∀ p ∈ g.edges.entries, ∀ street ∈ p.2.street?, g.street? p.1 = some street :=
      fun p hp street h => Option.bind_eq_some_iff.2 ⟨p.2, mem_entries_iff.1 hp, h⟩
    exact ⟨fun p hp => hedges (mem_entries_iff.1 hp), fun p hp q hq _ hs _ ht =>
      hdirections (hstreet p hp _ hs) (hstreet q hq _ ht)⟩
  · rintro ⟨hedges, hdirections⟩
    refine ⟨fun h => hedges _ (mem_entries_iff.2 h), fun hs ht => ?_⟩
    obtain ⟨source, hsource, hs⟩ := Option.bind_eq_some_iff.1 hs
    obtain ⟨target, htarget, ht⟩ := Option.bind_eq_some_iff.1 ht
    exact hdirections _ (mem_entries_iff.2 hsource) _ (mem_entries_iff.2 htarget) _ hs _ ht

instance : DecidablePred (Graph.IsMeasured (R := R)) :=
  fun _ => decidable_of_iff _ Graph.isMeasured_iff.symm

/-- Walking and cycling have no negative weight. Speeds are looked at when a request is placed. -/
structure Request.IsMeasured (request : Request R) : Prop where
  walkReluctance : 0 ≤ request.walkReluctance
  time : 0 ≤ request.triangle.time
  safety : 0 ≤ request.triangle.safety
  slope : 0 ≤ request.triangle.slope

instance : DecidablePred (Request.IsMeasured (R := R)) := fun request =>
  decidable_of_iff (0 ≤ request.walkReluctance ∧ 0 ≤ request.triangle.time ∧
      0 ≤ request.triangle.safety ∧ 0 ≤ request.triangle.slope)
    ⟨fun ⟨hwalk, htime, hsafety, hslope⟩ => ⟨hwalk, htime, hsafety, hslope⟩,
      fun ⟨hwalk, htime, hsafety, hslope⟩ => ⟨hwalk, htime, hsafety, hslope⟩⟩

namespace Request

theorem IsMeasured.shares (h : request.IsMeasured) : request.triangle.IsNonneg :=
  ⟨h.time, h.safety, h.slope⟩

theorem isNonneg_prepare (h : request.triangle.IsNonneg) :
    (Context.prepare request).triangle.IsNonneg := by
  unfold Context.prepare
  split
  · exact Triangle.isNonneg_normalized_iff.2 fun _ => h
  · exact h

theorem isMeasured_prepare (h : request.IsMeasured) : (Context.prepare request).IsMeasured := by
  have hshares := isNonneg_prepare h.shares
  refine ⟨?_, hshares.time, hshares.safety, hshares.slope⟩
  unfold Context.prepare
  split <;> exact h.walkReluctance

end Request

theorem Triangle.IsNonneg.cyclingWeight_nonneg {optimize : Optimize} {triangle : Triangle R}
    {safety : R} (H : triangle.IsNonneg) (h : 0 ≤ safety) :
    0 ≤ cyclingWeight optimize triangle safety := by
  unfold cyclingWeight
  split
  · exact Quantity.ofInt_nonneg (by decide)
  · exact h
  · split
    · exact mul_nonneg h (Quantity.ratio_nonneg (by decide) (by decide))
    · exact h
  · exact add_nonneg (add_nonneg H.time (mul_nonneg h H.safety)) H.slope

/-- A request whose costs are measured, and with which one gets on. -/
structure Context.IsPaced (ctx : Context R) : Prop where
  request : ctx.request.IsMeasured
  walkSpeed : 0 < ctx.request.walkSpeed
  bikeSpeed : 0 < ctx.request.bikeSpeed

theorem Context.isPaced_of (hctx : Context.of request g = .ok ctx)
    (hrequest : request.IsMeasured) : ctx.IsPaced := by
  have hprepared := Request.isMeasured_prepare hrequest
  obtain ⟨triangle, hrequest'⟩ := request_of hctx
  obtain ⟨hvalid, _, _, -, -, _, _, -, -, rfl⟩ := of_eq_ok_iff.1 hctx
  obtain ⟨-, -, -, hwalk, hbike, -⟩ := Request.validate_eq_ok_iff.1 hvalid
  refine ⟨hprepared, ?_, ?_⟩
  · rw [hrequest']
    exact lt_of_not_ge hwalk
  · rw [hrequest']
    exact lt_of_not_ge hbike

/-- Such a request on a graph whose edges are measured. -/
structure Context.IsMeasured (ctx : Context R) : Prop extends ctx.IsPaced where
  graph : ctx.graph.IsMeasured

theorem Context.isMeasured_of (hctx : Context.of request g = .ok ctx) (hg : g.IsMeasured)
    (hrequest : request.IsMeasured) : ctx.IsMeasured where
  toIsPaced := isPaced_of hctx hrequest
  graph := (graph_of hctx).symm ▸ hg

/-! ## Crossings -/

theorem wrapped_eq_self {n : Int} (hlow : -2 ^ 31 ≤ n) (hhigh : n < 2 ^ 31) : wrapped n = n :=
  Int.bmod_eq_of_le hlow hhigh

namespace Crossing

theorem secondsAtLight_nonneg (d : TurnDirection) : (0 : R) ≤ secondsAtLight d := by
  cases d <;> exact Quantity.ofInt_nonneg (by decide)

theorem secondsWithoutLight_nonneg (d : TurnDirection) : (0 : R) ≤ secondsWithoutLight d := by
  cases d <;> exact Quantity.ofInt_nonneg (by decide)

theorem drivingDelay_nonneg {right light : Bool} :
    0 ≤ drivingDelay right light source target := by
  unfold drivingDelay
  dsimp only
  split_ifs
  · exact secondsAtLight_nonneg _
  · exact le_rfl
  · exact secondsWithoutLight_nonneg _

omit [Field R] [LinearOrder R] [IsStrictOrderedRing R] [FloorRing R] in
theorem deviation_eq (h : |target.endAngle - source.startAngle| < 2 ^ 31) :
    deviation source target =
      if |target.endAngle - source.startAngle| > 180 then
        360 - |target.endAngle - source.startAngle|
      else |target.endAngle - source.startAngle| := by
  obtain ⟨hlow, hhigh⟩ := abs_lt.1 h
  have hnonneg := abs_nonneg (target.endAngle - source.startAngle)
  rw [deviation, wrapped_eq_self hlow.le hhigh, Int.natCast_natAbs,
    wrapped_eq_self (by omega) h]

omit [Field R] [LinearOrder R] [IsStrictOrderedRing R] [FloorRing R] in
theorem deviation_nonneg_iff (h : |target.endAngle - source.startAngle| < 2 ^ 31) :
    0 ≤ deviation source target ↔ |target.endAngle - source.startAngle| ≤ 360 := by
  have hturn := abs_nonneg (target.endAngle - source.startAngle)
  rw [deviation_eq h]
  split_ifs <;> omega

theorem baseDelay_nonneg (h : |target.endAngle - source.startAngle| ≤ 360) (hspeed : 0 < speed) :
    0 ≤ baseDelay source target speed :=
  div_nonneg (div_nonneg (Quantity.ofInt_nonneg ((deviation_nonneg_iff (by omega)).2 h))
    (Quantity.ofInt_nonneg (by decide))) hspeed.le

theorem delay_nonneg {right : Bool} {v : VertexIndex}
    (h : |target.endAngle - source.startAngle| ≤ 360) (hspeed : 0 < speed) :
    0 ≤ delay right g v source target mode speed := by
  have hbase := baseDelay_nonneg h hspeed
  have hfive : (0 : R) ≤ Quantity.ofInt 5 := Quantity.ofInt_nonneg (by decide)
  have hthree : (0 : R) ≤ Quantity.ofInt 3 := Quantity.ofInt_nonneg (by decide)
  unfold delay
  split
  · exact le_rfl
  · cases mode with
    | car => exact drivingDelay_nonneg
    | bicycle =>
      change 0 ≤ cyclingDelay right source target speed
      unfold cyclingDelay
      dsimp only
      split
      · exact mul_nonneg hbase hfive
      · exact mul_nonneg (mul_nonneg hbase hfive) hthree
      · exact hbase
    | walk => exact hbase
    | transit => exact hbase

end Crossing

/-! ## Moves -/

namespace Context

/-- Turning onto a street never takes negative time. -/
def DelaysTurns (ctx : Context R) : Prop :=
  ∀ {s e edge street}, ctx.Reachable s → ctx.graph.edge? e = some edge → edge.source = s.vertex →
    edge.kind = .street street → ∀ mode,
      0 ≤ ctx.turnDelay s street mode (ctx.streetSpeed street mode)

theorem staying_costs_nonneg {seconds cost : R} {plane : Plane} (hseconds : 0 ≤ seconds)
    (hcost : 0 ≤ cost) : 0 ≤ (Move.staying seconds cost mode plane).costs :=
  ⟨hseconds, hcost, le_rfl⟩

namespace IsPaced

theorem ownSpeed_pos (H : ctx.IsPaced) : 0 < Move.ownSpeed ctx.request mode := by
  unfold Move.ownSpeed
  split
  · exact H.bikeSpeed
  · exact H.walkSpeed

theorem streetSpeed_pos (H : ctx.IsPaced) (h : 0 < street.carSpeed) :
    0 < ctx.streetSpeed street mode := by
  unfold streetSpeed
  split
  · exact h
  · exact H.ownSpeed_pos

theorem linkSpeed_pos (H : ctx.IsPaced) : 0 < ctx.linkSpeed mode := by
  unfold linkSpeed
  split
  · exact Quantity.ratio_pos (by decide) (by decide)
  · exact H.ownSpeed_pos

theorem cyclingWeight_nonneg (H : ctx.IsPaced) (h : 0 ≤ street.bicycleSafety) :
    0 ≤ cyclingWeight ctx.request.optimize ctx.request.triangle street.bicycleSafety :=
  H.request.shares.cyclingWeight_nonneg h

theorem streetWeight_nonneg (H : ctx.IsPaced) (h : 0 ≤ street.bicycleSafety) {time : R}
    (htime : 0 ≤ time) : 0 ≤ ctx.streetWeight street mode time := by
  unfold streetWeight
  split
  · exact mul_nonneg htime H.request.walkReluctance
  · exact mul_nonneg htime (H.cyclingWeight_nonneg h)
  · exact htime
  · exact htime

theorem along_costs_nonneg (H : ctx.IsPaced) {plane : Plane} {length : R} (hlength : 0 ≤ length)
    (hspeed : 0 < speed) : 0 ≤ (Move.along ctx.request plane mode length speed).costs := by
  have htime : 0 ≤ length / speed := div_nonneg hlength hspeed.le
  unfold Move.along
  dsimp only
  split
  · exact ⟨htime, mul_nonneg htime H.request.walkReluctance, hlength⟩
  · exact ⟨htime, htime, le_rfl⟩

theorem alongStreet_costs_nonneg (H : ctx.IsPaced) (hstreet : (EdgeKind.street street).IsMeasured)
    (hturn : 0 ≤ ctx.turnDelay s street mode (ctx.streetSpeed street mode)) :
    0 ≤ (ctx.alongStreet s street mode).costs := by
  obtain ⟨hlength, hcar, hsafety⟩ := hstreet
  have htime : 0 ≤ street.length / ctx.streetSpeed street mode :=
    div_nonneg hlength (H.streetSpeed_pos hcar).le
  have hwalked : 0 ≤ if mode = .walk then street.length else 0 := by
    split
    · exact hlength
    · exact le_rfl
  exact ⟨add_nonneg htime (Quantity.ceil_nonneg hturn),
    add_nonneg (H.streetWeight_nonneg hsafety htime) hturn, hwalked⟩

/-- No move gives anything back, if turns do not. -/
theorem costs_nonneg (H : ctx.IsPaced) (hedge : edge.kind.IsMeasured)
    (hturn : ∀ street mode, edge.kind = .street street →
      0 ≤ ctx.turnDelay s street mode (ctx.streetSpeed street mode))
    (h : ctx.move? s e edge = some move) : 0 ≤ move.costs := by
  have hconstant : ∀ i : Int, 0 ≤ i → (0 : R) ≤ Quantity.ofInt i := fun _ => Quantity.ofInt_nonneg
  cases (move?_eq_some_iff.1 h).2 with
  | street hkind => exact H.alongStreet_costs_nonneg (hkind ▸ hedge) (hturn _ _ hkind)
  | link hkind =>
    rw [hkind] at hedge
    exact H.along_costs_nonneg hedge H.linkSpeed_pos
  | parkCar | rentBike | dropOffBike | parkBike =>
    exact staying_costs_nonneg (hconstant _ (by decide)) (hconstant _ (by decide))
  | board hkind =>
    rw [hkind] at hedge
    exact staying_costs_nonneg hedge (add_nonneg hedge (hconstant _ (by decide)))
  | hop hkind =>
    rw [hkind] at hedge
    exact staying_costs_nonneg hedge hedge
  | alight => exact staying_costs_nonneg le_rfl le_rfl
  | transfer hkind =>
    rw [hkind] at hedge
    exact H.along_costs_nonneg hedge H.walkSpeed
  | timedTransfer => exact le_rfl

theorem neverLowers (H : ctx.IsPaced)
    (hedges : ∀ {e edge}, ctx.graph.edge? e = some edge → edge.kind.IsMeasured)
    (hturns : ctx.DelaysTurns) : ctx.NeverLowers := by
  intro a b e ha h
  obtain ⟨id, edge, move, hedge, hsource, hmove, rfl⟩ := h.cases
  rw [State.after_costs]
  apply le_add_of_nonneg_right
  exact H.costs_nonneg (hedges hedge) (fun _ mode hkind => hturns ha hedge hsource hkind mode) hmove

end IsPaced

namespace IsMeasured

theorem turnDelay_nonneg (H : ctx.IsMeasured) (he : ctx.graph.street? e = some street)
    (hspeed : 0 < speed) : 0 ≤ ctx.turnDelay s street mode speed := by
  unfold turnDelay
  split
  · exact le_rfl
  · rename_i source hsource
    obtain ⟨f, -, hf⟩ := Option.bind_eq_some_iff.1 hsource
    exact Crossing.delay_nonneg (H.graph.directions hf he) hspeed

theorem alongStreet_turn_nonneg (H : ctx.IsMeasured) (he : ctx.graph.street? e = some street)
    (hstreet : (EdgeKind.street street).IsMeasured) (s : State R) (mode : Mode) :
    0 ≤ ctx.turnDelay s street mode (ctx.streetSpeed street mode) :=
  H.turnDelay_nonneg he (H.streetSpeed_pos hstreet.2.1)

theorem neverLowers (H : ctx.IsMeasured) : ctx.NeverLowers := by
  refine H.toIsPaced.neverLowers H.graph.edges fun {s e edge street} _ hedge _ hkind mode => ?_
  have he : ctx.graph.street? e = some street := Graph.street?_eq_some_iff.2 ⟨edge, hedge, hkind⟩
  exact H.alongStreet_turn_nonneg he (hkind ▸ H.graph.edges hedge) s mode

end IsMeasured

end Context

end TripPlanner
