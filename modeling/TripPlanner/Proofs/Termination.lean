import TripPlanner.Proofs.Coverage
import TripPlanner.Proofs.Measures
import TripPlanner.Proofs.Evenness

/-!
# Termination

A search ends where costs never fall and no edges that dominance exempts form a cycle
(`Context.Exempt`): timed transfers and, under `DominanceRule.pareto` and with an uneven estimate to
go by, the boardings after them. So a destination that can be reached is found by every search that
is granted enough steps (`Graph.findPaths_of_reachable`).
-/

namespace TripPlanner

namespace Context

section
variable {R : Type} [Quantity R] [Geodesy R] {ctx : Context R} {request : Request R} {g : Graph R}
  {search : Search R} {m n : Nat}

/-- The request granted another number of steps. -/
def granting (ctx : Context R) (steps : Nat) : Context R :=
  { ctx with request := { ctx.request with maxSearchSteps := steps } }

omit [Geodesy R] in
theorem of_granting (h : Context.of request g = .ok ctx) :
    Context.of { request with maxSearchSteps := m } g = .ok (ctx.granting m) := by
  obtain ⟨hvalid, start, goal, hstart, hgoal, origin, target, horigin, htarget, rfl⟩ :=
    of_eq_ok_iff.1 h
  refine of_eq_ok_iff.2 ⟨hvalid, start, goal, hstart, hgoal, origin, target, horigin, htarget, ?_⟩
  unfold placed prepare granting
  dsimp only
  split <;> rfl

/-- The number of steps that are granted decides nothing while a search runs. -/
theorem run_granting : Search.run (ctx.granting m) n search = Search.run ctx n search := by
  induction n generalizing search with
  | zero =>
    rw [Search.run, Search.run]
    rfl
  | succ n ih =>
    rw [Search.run, Search.run]
    simp only [ih]
    rfl

theorem findPaths_granting (h : Context.of request g = .ok ctx) :
    g.findPaths { request with maxSearchSteps := m } = (ctx.granting m).findPaths :=
  Graph.findPaths_of (of_granting h)

/-- A run that ends with steps to spare has found the destination, if it can be reached. -/
theorem found_ne_nil_of_run (hcount : ctx.request.numItineraries ≠ 0)
    (hmix : ctx.Unmixed)
    (hend : (Search.run ctx n (Search.start ctx)).2 ≠ .outOfSteps) {es : List EdgeIndex}
    {s : State R} (hchain : ctx.Chain (.initial ctx.origin) es s) (hfinal : ctx.isFinal s = true) :
    (Search.run ctx n (Search.start ctx)).1.found ≠ [] := by
  have hstart : (Search.start ctx).Reached ctx := .start
  obtain ⟨last, reason, hrun, hreached, henough, hexhausted⟩ := Search.run_cases (n := n) hstart
  rw [hrun] at hend ⊢
  intro hnone
  cases reason with
  | enough =>
    have hlength := henough rfl
    rw [hnone] at hlength
    exact hcount (Nat.le_zero.1 hlength)
  | exhausted =>
    have hempty : last.Exhausted ctx := ⟨hreached, hexhausted rfl, hnone⟩
    rw [hempty.not_isFinal hmix hchain] at hfinal
    cases hfinal
  | outOfSteps => exact hend rfl

end

variable {R : Type} [Field R] [LinearOrder R] [IsStrictOrderedRing R] [FloorRing R] [Geodesy R]
  {ctx : Context R}

/-- A search whose exempt edges form no cycle ends. -/
theorem exists_run_ne_outOfSteps (hcosts : ctx.NeverLowers)
    (hacyclic : ∀ v, ¬ Relation.TransGen ctx.Exempt v v)
    (hmix : ctx.Unmixed) :
    ∃ n, (Search.run ctx n (Search.start ctx)).2 ≠ .outOfSteps := by
  by_contra! hendless
  obtain ⟨st, served, H⟩ := (Search.endless_of_outOfSteps hendless).chronicle
  by_cases hguided : ctx.request.dominance = .pareto → ctx.GuidedUnevenly
  · refine H.not_forall_arrivals_finite fun v => ?_
    induction v using (wellFounded_exempt hacyclic).induction with
    | _ v ih => exact H.arrivals_finite hcosts hmix hguided (H.exemptArrivals_finite ih)
  · obtain ⟨hrule, heven⟩ := Classical.not_imp.1 hguided
    refine H.false_of_estimatesEvenly hrule ?_ hcosts hmix hacyclic
    cases hheuristic : ctx.request.heuristic with
    | trivial => exact estimatesEvenly_of_trivial hheuristic fun ha h => (hcosts ha h).2.1
    | euclidean => exact not_not.1 fun h => heven ⟨hheuristic, h⟩

end Context

/-- A destination that can be reached is found by every search that may take enough steps, unless
timed transfers, which dominance leaves alone, lead around in a circle. Where an uneven estimate
guides the search, the boardings that `DominanceRule.pareto` prefers after them must not do so
either. -/
theorem Graph.findPaths_of_reachable {R : Type} [Field R] [LinearOrder R] [IsStrictOrderedRing R]
    [FloorRing R] [Geodesy R] {g : Graph R} {request : Request R} {ctx : Context R}
    (hctx : Context.of request g = .ok ctx) (hg : g.IsMeasured) (hrequest : request.IsMeasured)
    (hacyclic : ∀ v, ¬ Relation.TransGen ctx.Exempt v v)
    (hmix : g.BoardsAfterChange → ¬ (request.allowRental = true ∧ request.bikeAndRide = true))
    {es : List EdgeIndex} {s : State R} (hchain : ctx.Chain (.initial ctx.origin) es s)
    (hfinal : ctx.isFinal s = true) :
    ∃ n, ∀ m ≥ n, ∃ paths, g.findPaths { request with maxSearchSteps := m } = .ok paths := by
  have hunmixed : ctx.Unmixed := by
    obtain ⟨triangle, hplaced⟩ := Context.request_of hctx
    obtain ⟨-, _, _, -, -, _, _, -, -, rfl⟩ := Context.of_eq_ok_iff.1 hctx
    rwa [Context.Unmixed, Context.MixesBicycles, hplaced]
  have hcount : ctx.request.numItineraries ≠ 0 := by
    obtain ⟨triangle, hplaced⟩ := Context.request_of hctx
    rw [hplaced]
    exact (Request.validate_eq_ok_iff.1 (Context.of_eq_ok_iff.1 hctx).1).2.2.2.2.2
  have hcosts : ctx.NeverLowers := (Context.isMeasured_of hctx hg hrequest).neverLowers
  obtain ⟨n, hn⟩ := Context.exists_run_ne_outOfSteps hcosts hacyclic hunmixed
  refine ⟨n, fun m hm => ⟨(ctx.granting m).search.1.itineraries (ctx.granting m), ?_⟩⟩
  have hfound : (ctx.granting m).search.1.found ≠ [] := by
    rw [Context.search, Context.run_granting]
    change (Search.run ctx m (Search.start ctx)).1.found ≠ []
    rw [Search.run_of_le hn hm]
    exact Context.found_ne_nil_of_run hcount hunmixed hn hchain hfinal
  rw [Context.findPaths_granting hctx]
  exact Context.findPaths_eq_ok_iff.2 ⟨hfound, rfl⟩

/-- The walk over the corners is found by every search that may take enough steps. -/
theorem Graph.findPaths_corners : ∃ n, ∀ m ≥ n, ∃ paths,
    Corners.graph.findPaths { Corners.onFoot 0 2 with maxSearchSteps := m } = .ok paths := by
  have hplain : ∀ p ∈ Corners.graph.edges.entries, p.2.edgeClass ≠ .timedTransfer := by
    decide
  have hopen : ∀ v, ¬ Relation.TransGen Corners.there.Exempt v v := fun v h => by
    obtain ⟨u, h, -⟩ := Relation.TransGen.head'_iff.1 h
    exact Context.not_exempt hplain v u h
  have hway : ((Corners.there.walk? (.initial 0) [0, 1]).any Corners.there.isFinal) = true := by
    decide
  obtain ⟨es, s, hchain, hfinal⟩ := Context.exists_final_of_walk? _ hway
  exact Graph.findPaths_of_reachable Corners.of_there (by decide +kernel) (by decide +kernel) hopen
    (fun _ => by decide) hchain hfinal

end TripPlanner
