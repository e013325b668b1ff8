import TripPlanner.Proofs.Boarding
import TripPlanner.Proofs.Measures

/-!
# Accumulation

No edge gives anything back. Where lengths, waits and weights are not negative, a trip has cost no
less behind an edge than before it, and whoever has boarded, or has left a car or a bicycle of one's
own, has done so for good (`State.Accrues`). This holds of every state, in whatever way it came
about (`Context.IsMeasured.accrues`), and so of all the edges that are followed one after the other.
-/

namespace TripPlanner

/-- What was done on the way to the first situation has been done in the second one. A bicycle that
is rented may be returned. -/
structure Plane.Retains (a b : Plane) : Prop where
  everBoarded : a.everBoarded = true → b.everBoarded = true
  carParked : a.carParked = true → b.carParked = true
  bikeParked : a.bikeParked = true → b.bikeParked = true

theorem Plane.Retains.refl {a : Plane} : a.Retains a := ⟨id, id, id⟩

theorem Plane.Retains.trans {a b c : Plane} (h : a.Retains b) (h' : b.Retains c) : a.Retains c where
  everBoarded := h'.everBoarded ∘ h.everBoarded
  carParked := h'.carParked ∘ h.carParked
  bikeParked := h'.bikeParked ∘ h.bikeParked

/-- The second state has cost no less than the first one, and is as far in what is done once. -/
structure State.Accrues {R : Type} [LE R] (a b : State R) : Prop where
  weight : a.weight ≤ b.weight
  elapsed : a.elapsed ≤ b.elapsed
  walked : a.walked ≤ b.walked
  plane : a.plane.Retains b.plane

theorem State.Accrues.refl {R : Type} [Preorder R] {a : State R} : a.Accrues a :=
  ⟨le_rfl, le_rfl, le_rfl, .refl⟩

theorem State.Accrues.trans {R : Type} [Preorder R] {a b c : State R} (h : a.Accrues b)
    (h' : b.Accrues c) : a.Accrues c where
  weight := h.weight.trans h'.weight
  elapsed := h.elapsed.trans h'.elapsed
  walked := h.walked.trans h'.walked
  plane := h.plane.trans h'.plane

/-- A situation is left for another one by doing something, or by returning a bicycle. -/
theorem Context.Changes.retains {R : Type} {ctx : Context R} {s : State R} {edge : Edge R}
    {plane : Plane} (h : ctx.Changes s edge plane) : s.plane.Retains plane := by
  cases h with
  | stay => exact .refl
  | rent | dropOff => exact ⟨id, id, id⟩
  | parkCar => exact ⟨id, fun _ => rfl, id⟩
  | parkBike => exact ⟨id, id, fun _ => rfl⟩
  | board => exact ⟨fun _ => rfl, id, id⟩

section
variable {R : Type} [Field R] [LinearOrder R] [IsStrictOrderedRing R] [FloorRing R]
  {g : Graph R} {request : Request R} {ctx : Context R} {a b s next : State R} {id : StateId}
  {e : EdgeIndex} {edge : Edge R} {es : List EdgeIndex}

/-- Directions between 0 and 360 degrees are no more than a full circle apart. -/
theorem Graph.isMeasured_of_angles
    (hedges : ∀ {e edge}, g.edge? e = some edge → edge.kind.IsMeasured)
    (hangles : ∀ {e street}, g.street? e = some street →
      (0 ≤ street.startAngle ∧ street.startAngle ≤ 360) ∧
        0 ≤ street.endAngle ∧ street.endAngle ≤ 360) : g.IsMeasured where
  edges := hedges
  directions hsource htarget := by
    obtain ⟨⟨hlow, hhigh⟩, -⟩ := hangles hsource
    obtain ⟨-, hlow', hhigh'⟩ := hangles htarget
    rw [abs_le]
    omega

namespace Context

theorem IsMeasured.accrues (H : ctx.IsMeasured) (hedge : ctx.graph.edge? e = some edge)
    (h : ctx.traverse id s e edge = some next) : s.Accrues next := by
  obtain ⟨move, hmove, rfl⟩ := traverse_eq_some_iff.1 h
  have hcosts : 0 ≤ move.costs := by
    refine H.costs_nonneg (H.graph.edges hedge) (fun street mode hkind => ?_) hmove
    have he : ctx.graph.street? e = some street := Graph.street?_eq_some_iff.2 ⟨edge, hedge, hkind⟩
    exact H.alongStreet_turn_nonneg he (hkind ▸ H.graph.edges hedge) s mode
  obtain ⟨hseconds, hcost, hwalked⟩ := hcosts
  exact ⟨le_add_of_nonneg_right hcost, le_add_of_nonneg_right hseconds,
    le_add_of_nonneg_right hwalked, (changes_of_move? hmove).retains⟩

theorem IsMeasured.accrues_of_chain (H : ctx.IsMeasured) (h : ctx.Chain a es b) : a.Accrues b := by
  induction h with
  | nil => exact .refl
  | cons hfollows _ ih =>
    obtain ⟨id, edge, hedge, -, hnext⟩ := hfollows
    exact (H.accrues hedge hnext).trans ih

/-- With a request that is valid, and on a graph whose edges are measured, no edge gives anything
back to any state, and neither do any number of edges. -/
theorem givesNothingBack (hctx : Context.of request g = .ok ctx) (hg : g.IsMeasured)
    (hrequest : request.IsMeasured) :
    (∀ {id s e edge next}, g.edge? e = some edge → ctx.traverse id s e edge = some next →
      s.Accrues next) ∧
    ∀ {a es b}, ctx.Chain a es b → a.Accrues b := by
  have H := isMeasured_of hctx hg hrequest
  refine ⟨fun hedge h => H.accrues ?_ h, fun h => H.accrues_of_chain h⟩
  rwa [graph_of hctx]

end Context

end

/-! ## A bend -/

namespace Hairpin

/-- A street that ends where another one starts, which goes back the way it came. -/
def graph : Graph ℚ :=
  .build
    [.intersection "valley" ⟨0, 0⟩, .intersection "bend" ⟨1, 0⟩, .intersection "pass" ⟨2, 0⟩,
      .intersection "hut" ⟨1, 1⟩]
    [(0, 1, .street ((Street.plain 1 1000 .allStreet).withAngles 10 10)),
      (1, 2, .street ((Street.plain 1 1000 .allStreet).withAngles 350 350)),
      (1, 3, .street (.plain 2 10 .pedestrian))]

/-- A ride up to the pass. -/
def request : Request ℚ :=
  { Request.default with
    origin := some ⟨0, 0⟩
    destination := some ⟨2, 0⟩
    modes := .ofList [.bicycle] }

def ride : Context ℚ := .placed request graph 0 2 ⟨0, 0⟩ ⟨2, 0⟩

theorem of_request : Context.of request graph = .ok ride :=
  Context.of_placed (by decide +kernel) rfl rfl (by decide +kernel) (by decide +kernel) (by decide)

/-- A state at the bend that no trip leads to: it has cost less than nothing. -/
def bend : State ℚ :=
  ⟨1, -7, 100, 0, none, some ⟨0, .street⟩, some .bicycle,
    { Plane.initial with everBoarded := true }⟩

def climb : Edge ℚ :=
  ⟨1, 1, 2, .street ((Street.plain 1 1000 .allStreet).withAngles 350 350)⟩

theorem isMeasured_graph : graph.IsMeasured := by
  have hedges : ∀ p ∈ graph.edges.entries, p.2.kind.IsMeasured := by decide +kernel
  have hangles : ∀ p ∈ graph.edges.entries, ∀ street ∈ p.2.street?,
      (0 ≤ street.startAngle ∧ street.startAngle ≤ 360) ∧
        0 ≤ street.endAngle ∧ street.endAngle ≤ 360 := by decide
  refine Graph.isMeasured_of_angles (fun h => hedges _ (Graph.mem_entries_iff.2 h)) fun h => ?_
  obtain ⟨edge, hedge, hstreet⟩ := Option.bind_eq_some_iff.1 h
  exact hangles _ (Graph.mem_entries_iff.2 hedge) _ hstreet

/-- The ride is delayed by what the turn leaves of the full circle, rounded up to a second. -/
theorem accrues_at_bend : ∃ next, ride.traverse 5 bend 1 climb = some next ∧
    next.elapsed = 100 + 200 + 1 ∧ bend.Accrues next := by
  have hride : (ride.traverse 5 bend 1 climb).any (·.elapsed = 100 + 200 + 1) = true := by
    decide +kernel
  obtain ⟨next, hnext, helapsed⟩ := (Option.any_eq_true _ _).1 hride
  have hgained := Context.givesNothingBack of_request isMeasured_graph (by decide +kernel)
  exact ⟨next, hnext, of_decide_eq_true helapsed, hgained.1 (by decide +kernel) hnext⟩

end Hairpin

end TripPlanner
