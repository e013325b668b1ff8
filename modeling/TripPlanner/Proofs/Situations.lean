import Mathlib.Algebra.Group.Submonoid.Pointwise
import Mathlib.Algebra.Order.Monoid.Prod
import Mathlib.Data.Finite.Prod
import TripPlanner.Proofs.Boarding

/-!
# Situations

A state without its past and its costs is a situation (`State.atRest`). A request has finitely many
of them on a graph, so finitely many moves, and where no move lowers a cost the costs of all states
are partially well-ordered (`Context.NeverLowers.costs_isPWO`).
-/

namespace TripPlanner

section
variable {R : Type} [Quantity R] {ctx : Context R} {s a b : State R} {e : EdgeIndex}
  {edge : Edge R}

/-- The state where it is, before anything was spent. -/
def State.atRest (s : State R) : State R :=
  { s with weight := 0, elapsed := 0, walked := 0, parent := none }

/-- Where a state is, over which edge it came and in which situation. -/
def State.tag (s : State R) : VertexIndex × Option BackEdge × Plane := (s.vertex, s.back, s.plane)

omit [Quantity R] in
theorem State.tag_eq_iff :
    a.tag = b.tag ↔ a.vertex = b.vertex ∧ a.back = b.back ∧ a.plane = b.plane := by
  simp [State.tag]

/-- A move is the same for all states in one situation. -/
theorem Context.move?_atRest : ctx.move? s.atRest e edge = ctx.move? s e edge := rfl

theorem Mode.finite : Finite Mode :=
  Set.finite_univ_iff.1 ((List.finite_toSet Mode.all).subset fun mode _ => by
    cases mode <;> simp [Mode.all])

/-- The numbered edges of the graph. -/
def Context.edgeSet (ctx : Context R) : Set (EdgeIndex × Edge R) :=
  {p | ctx.graph.edge? p.1 = some p.2}

omit [Quantity R] in
theorem Context.edgeSet_finite (ctx : Context R) : ctx.edgeSet.Finite :=
  (List.finite_toSet ctx.graph.edges.entries).subset fun _ h => Graph.mem_entries_iff.2 h

/-- Where a state can be, and over which edge it can have come there. -/
def Context.places (ctx : Context R) : Set (VertexIndex × Option BackEdge) :=
  insert (ctx.origin, none)
    ((fun p => (p.2.target, some ⟨p.1, p.2.edgeClass⟩)) '' ctx.edgeSet)

/-- Which bicycles a state can have rented. -/
def Context.rentals (ctx : Context R) : Set (Option NetworkSet) :=
  insert none ((fun p => (ctx.stationNetworks? p.2.source).map ctx.usableNetworks) '' ctx.edgeSet)

theorem Context.Reachable.mem_places (H : ctx.Reachable s) : (s.vertex, s.back) ∈ ctx.places := by
  cases H with
  | origin => exact .inl rfl
  | step _ h =>
    obtain ⟨id, edge, move, hedge, -, -, rfl⟩ := h.cases
    exact .inr ⟨(_, edge), hedge, rfl⟩

theorem Context.Reachable.mem_rentals (H : ctx.Reachable s) : s.plane.rented ∈ ctx.rentals := by
  induction H with
  | origin => exact .inl rfl
  | step _ h ih =>
    obtain ⟨id, edge, move, hedge, -, hmove, rfl⟩ := h.cases
    have hchange := changes_of_move? hmove
    rw [State.after_plane]
    generalize move.plane = plane at hchange
    cases hchange with
    | stay | parkCar | parkBike | board => exact ih
    | dropOff => exact .inl rfl
    | rent _ _ hstation => exact .inr ⟨(_, edge), hedge, by simp [hstation]⟩

/-- The situations of the states that can be reached. -/
def Context.situations (ctx : Context R) : Set (State R) :=
  {x | ∃ s, ctx.Reachable s ∧ s.atRest = x}

theorem Context.situations_finite (ctx : Context R) : ctx.situations.Finite := by
  have := Mode.finite
  let parts := (ctx.places ×ˢ (Set.univ : Set (Option Mode))) ×ˢ
    (ctx.rentals ×ˢ (Set.univ : Set (Bool × Bool × Bool)))
  have hparts : parts.Finite := by
    have hedges := ctx.edgeSet_finite
    refine ((Set.Finite.insert _ (hedges.image _)).prod Set.finite_univ).prod ?_
    exact (Set.Finite.insert _ (hedges.image _)).prod Set.finite_univ
  let build (p : ((VertexIndex × Option BackEdge) × Option Mode) ×
      (Option NetworkSet × Bool × Bool × Bool)) : State R :=
    ⟨p.1.1.1, 0, 0, 0, none, p.1.1.2, p.1.2, ⟨p.2.2.1, p.2.1, p.2.2.2.1, p.2.2.2.2⟩⟩
  refine (hparts.image build).subset ?_
  rintro _ ⟨s, hs, rfl⟩
  refine ⟨(((s.vertex, s.back), s.mode), (s.plane.rented, s.plane.everBoarded, s.plane.carParked,
    s.plane.bikeParked)), ?_, rfl⟩
  exact ⟨⟨hs.mem_places, Set.mem_univ _⟩, hs.mem_rentals, Set.mem_univ _⟩

end

/-! ## Costs -/

section
variable {R : Type} [Field R] [LinearOrder R] [IsStrictOrderedRing R] [FloorRing R]
  {ctx : Context R} {s a b : State R} {e : EdgeIndex}

/-- What a trip has cost: seconds, weight and metres walked. -/
def State.costs (s : State R) : R × R × R := (s.elapsed, s.weight, s.walked)

/-- What a move adds. -/
def Move.costs (move : Move R) : R × R × R := (move.seconds, move.cost, move.walked)

theorem State.after_costs {id : StateId} {edge : Edge R} {move : Move R} :
    (s.after id e edge move).costs = s.costs + move.costs := rfl

/-- Following an edge never lowers what a trip has cost. -/
def Context.NeverLowers (ctx : Context R) : Prop :=
  ∀ {a b e}, ctx.Reachable a → ctx.Follows a e b → a.costs ≤ b.costs

theorem Context.NeverLowers.costs_nonneg (H : ctx.NeverLowers) (hs : ctx.Reachable s) :
    0 ≤ s.costs := by
  induction hs with
  | origin => exact le_rfl
  | step ha h ih => exact ih.trans (H ha h)

/-- What following an edge can add. -/
def Context.additions (ctx : Context R) : Set (R × R × R) :=
  {d | 0 ≤ d ∧ ∃ x ∈ ctx.situations, ∃ p ∈ ctx.edgeSet, ∃ move,
    ctx.move? x p.1 p.2 = some move ∧ move.costs = d}

theorem Context.additions_finite (ctx : Context R) : ctx.additions.Finite := by
  let cost (q : State R × EdgeIndex × Edge R) : R × R × R :=
    ((ctx.move? q.1 q.2.1 q.2.2).map Move.costs).getD 0
  refine ((ctx.situations_finite.prod ctx.edgeSet_finite).image cost).subset ?_
  rintro d ⟨-, x, hx, p, hp, move, hmove, rfl⟩
  exact ⟨(x, p), ⟨hx, hp⟩, by simp [cost, hmove]⟩

theorem Context.NeverLowers.mem_closure (H : ctx.NeverLowers) (hs : ctx.Reachable s) :
    s.costs ∈ AddSubmonoid.closure ctx.additions := by
  induction hs with
  | origin => exact AddSubmonoid.zero_mem _
  | @step a b e ha h ih =>
    have hle := H ha h
    obtain ⟨id, edge, move, hedge, -, hmove, rfl⟩ := h.cases
    rw [State.after_costs] at hle ⊢
    have hnonneg : 0 ≤ move.costs := (le_add_iff_nonneg_right _).1 hle
    have hmove' : ctx.move? a.atRest e edge = some move := by rw [move?_atRest, hmove]
    refine AddSubmonoid.add_mem _ ih (AddSubmonoid.subset_closure ⟨hnonneg, a.atRest, ?_⟩)
    exact ⟨⟨a, ha, rfl⟩, (e, edge), hedge, move, hmove', rfl⟩

/-- In any sequence of states some state has cost no more than a later one. -/
theorem Context.NeverLowers.costs_isPWO (H : ctx.NeverLowers) :
    {c | ∃ s, ctx.Reachable s ∧ s.costs = c}.IsPWO := by
  refine Set.IsPWO.mono (Set.IsPWO.addSubmonoid_closure (fun d hd => hd.1)
    ctx.additions_finite.isPWO) ?_
  rintro _ ⟨s, hs, rfl⟩
  exact H.mem_closure hs

end

end TripPlanner
