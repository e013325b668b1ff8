import TripPlanner.Proofs.Starvation

/-!
# Planes

The costs of states are compared on one plane only. A boarding right after a guaranteed change
dominates other boardings before their planes are compared: then these differ at most in a parked
bicycle, and only if bicycles may be rented and have to be parked
(`Context.plane_eq_of_dominates`). With such a request they do differ
(`Detour.dominates_across_planes`).
-/

namespace TripPlanner

namespace Context

variable {R : Type} [Quantity R] {ctx : Context R} {store : StateStore R} {a b : State R}
  {rule : DominanceRule}

/-- Whoever has boarded has parked a bicycle or has not, which only mixing bicycles leaves open. -/
theorem Reachable.plane_eq_of_board (ha : ctx.Reachable a) (hb : ctx.Reachable b)
    (haboard : a.arrivedVia .board = true) (hbboard : b.arrivedVia .board = true) :
    a.plane = b.plane ∨
      ctx.MixesBicycles ∧ a.plane = { b.plane with bikeParked := !b.plane.bikeParked } := by
  by_cases hmix : ctx.MixesBicycles
  · rw [ha.eq_aboard_of_board haboard, hb.eq_aboard_of_board hbboard]
    cases a.plane.bikeParked <;> cases b.plane.bikeParked
    case true.true | false.false => exact .inl rfl
    case true.false | false.true => exact .inr ⟨hmix, rfl⟩
  · exact .inl ((ha.plane_of_board hmix haboard).trans (hb.plane_of_board hmix hbboard).symm)

variable [Geodesy R]

/-- A state dominates states on its own plane. If bicycles may be rented and have to be parked, it
may also dominate one that differs in whether a bicycle is parked. -/
theorem plane_eq_of_dominates (ha : ctx.Reachable a) (hb : ctx.Reachable b)
    (h : ctx.dominates rule store a b = true) :
    a.plane = b.plane ∨
      ctx.MixesBicycles ∧ a.plane = { b.plane with bikeParked := !b.plane.bikeParked } := by
  rcases (dominates_iff.1 h).2 with hboarded | ⟨hplane, -, -⟩
  · obtain ⟨haboard, hbboard, -⟩ := boardedAfterChange_iff.1 hboarded
    exact ha.plane_eq_of_board hb haboard hbboard
  · exact .inl hplane

end Context

/-! ## Two boardings at one stop -/

namespace Detour

/-- All states of the search for the trip. -/
def store : StateStore ℚ := (Search.run trip 40 (Search.start trip)).1.store

/-- Come to `b` over the guaranteed change. -/
def onFoot : { s : State ℚ // store.get? 3 = some s } :=
  ⟨⟨5, 10, 10, 10, some 1, some ⟨8, .timedTransfer⟩, some .walk, .initial⟩, by decide +kernel⟩

/-- Come to `b` after having parked a rented bicycle and returned it all the same. -/
def returned : { s : State ℚ // store.get? 14 = some s } :=
  ⟨⟨5, 294, 174, 20, some 13, some ⟨6, .other⟩, some .walk, ⟨false, none, false, true⟩⟩,
    by decide +kernel⟩

/-- Boarded at `b` after the guaranteed change. -/
def changed : State ℚ :=
  ⟨6, 610, 10, 10, some 3, some ⟨9, .board⟩, some .transit, ⟨true, none, false, false⟩⟩

/-- Boarded at `b` after the bicycle was parked. -/
def parked : State ℚ :=
  ⟨6, 894, 174, 20, some 14, some ⟨9, .board⟩, some .transit, ⟨true, none, false, true⟩⟩

theorem grown_store : trip.Grown store := Search.reached_run.consistent.grown

theorem born_changed : trip.Born store changed :=
  .inr ⟨3, onFoot, 9, onFoot.2, by decide +kernel⟩

theorem born_parked : trip.Born store parked :=
  .inr ⟨14, returned, 9, returned.2, by decide +kernel⟩

theorem dominates_parked (rule : DominanceRule) :
    trip.dominates rule store changed parked = true := by
  have hboarded : boardedAfterChange store changed parked = true :=
    Context.boardedAfterChange_iff.2 ⟨rfl, rfl, onFoot, onFoot.2, rfl⟩
  exact Context.dominates_iff.2 ⟨rfl, .inl hboarded⟩

theorem plane_eq_at_stop : trip.dominates .pareto store changed parked = true ∧
    (changed.plane = parked.plane ∨ trip.MixesBicycles ∧
      changed.plane = { parked.plane with bikeParked := !parked.plane.bikeParked }) :=
  ⟨dominates_parked .pareto, Context.plane_eq_of_dominates (born_changed.reachable grown_store)
    (born_parked.reachable grown_store) (dominates_parked .pareto)⟩

/-- With every rule a state dominates one on another plane. -/
theorem dominates_across_planes : Context.of request graph = .ok trip ∧
    ∃ store a b, trip.Grown store ∧ trip.Born store a ∧ trip.Born store b ∧
      a.vertex = b.vertex ∧ (∀ rule, trip.dominates rule store a b = true) ∧
      a.plane ≠ b.plane :=
  ⟨of_request, store, changed, parked, grown_store, born_changed, born_parked, rfl,
    dominates_parked, by decide⟩

end Detour

end TripPlanner
