import TripPlanner.Proofs.Outlines
import TripPlanner.Proofs.Rank

/-!
# Recurrence

A search compares costs by their differences. An outline in which everything has cost more by the
same amount goes on as before (`Outline.step?_delayed`). So where an outline comes back to itself,
later by some costs, the search goes on for ever, and finds nothing (`Outline.Depicts.found_run`).
-/

namespace TripPlanner

variable {R : Type} [Field R] [LinearOrder R] [IsStrictOrderedRing R] [FloorRing R]

/-- The state, had so much more been spent before. -/
def State.delayed (d : R × R × R) (s : State R) : State R :=
  { s with elapsed := s.elapsed + d.1, weight := s.weight + d.2.1, walked := s.walked + d.2.2 }

def Arrival.delayed (d : R × R × R) (a : Arrival R) : Arrival R :=
  { a with state := a.state.delayed d }

def Outline.delayed (d : R × R × R) (o : Outline R) : Outline R :=
  ⟨o.labels.map (.delayed d), o.waiting.map (.delayed d)⟩

variable {ctx : Context R} {d : R × R × R} {s t : State R} {e : EdgeIndex} {edge : Edge R}
  {move : Move R} {id : StateId}

namespace State

theorem delayed_after :
    (s.delayed d).after id e edge move = (s.after id e edge move).delayed d := by
  have hadd : ∀ a b c : R, a + b + c = a + c + b := add_right_comm
  unfold after delayed
  simp only [mk.injEq, true_and, and_true]
  exact ⟨hadd _ _ _, hadd _ _ _, hadd _ _ _⟩

theorem noWorse_delayed {rule : DominanceRule} :
    rule.noWorse (s.delayed d) (t.delayed d) = rule.noWorse s t := by
  rw [Bool.eq_iff_iff, DominanceRule.noWorse_iff, DominanceRule.noWorse_iff]
  cases rule with
  | pareto =>
    simp only [delayed, add_right_comm _ _ paretoSlack, add_le_add_iff_right]
  | _ => exact add_le_add_iff_right _

end State

namespace Arrival

variable {a b : Arrival R}

theorem isFinal_delayed : ctx.isFinal (a.delayed d).state = ctx.isFinal a.state := rfl

theorem next_delayed : (a.delayed d).next ctx = (a.next ctx).map (.delayed d) := by
  have hmove : ∀ e edge, ctx.move? (a.state.delayed d) e edge = ctx.move? a.state e edge :=
    fun _ _ => rfl
  simp only [next, Context.successors, Context.traverse, List.map_filterMap, Option.map_map]
  refine List.filterMap_congr fun p _ => ?_
  change ((ctx.move? (a.state.delayed d) p.1 p.2).map _) = _
  rw [hmove]
  refine Option.map_congr fun move _ => ?_
  simp only [Function.comp_apply, delayed, following, State.delayed_after]
  rfl

variable [Geodesy R]

theorem priority_delayed : (a.delayed d).priority ctx = a.priority ctx + d.2.1 :=
  add_right_comm _ _ _

theorem beats_delayed : (a.delayed d).beats ctx (b.delayed d) = a.beats ctx b := by
  have hcost : ctx.request.dominance.noWorse (a.delayed d).state (b.delayed d).state =
      ctx.request.dominance.noWorse a.state b.state := State.noWorse_delayed
  unfold beats
  rw [hcost]
  rfl

end Arrival

namespace Outline

variable [Geodesy R] {region : List VertexIndex} {o o' : Outline R} {a b : Arrival R}
  {n m : Nat}

theorem insertOrdered_delayed {as : List (Arrival R)} :
    insertOrdered ctx (a.delayed d) (as.map (.delayed d)) =
      (insertOrdered ctx a as).map (.delayed d) := by
  induction as with
  | nil => rfl
  | cons b as ih =>
    simp only [List.map_cons, insertOrdered, Arrival.priority_delayed, add_lt_add_iff_right, ih]
    split <;> rfl

theorem accept_delayed : (o.delayed d).accept ctx (a.delayed d) = (o.accept ctx a).delayed d := by
  have hfilter : ∀ as : List (Arrival R),
      (as.map (.delayed d)).filter (fun b => !(a.delayed d).beats ctx b) =
        (as.filter fun b => !a.beats ctx b).map (.delayed d) := by
    intro as
    rw [List.filter_map]
    simp only [Function.comp_def, Arrival.beats_delayed]
  have hcomparable : ∀ as : List (Arrival R),
      (as.map (.delayed d)).filter Arrival.isComparable =
        (as.filter Arrival.isComparable).map (.delayed d) := fun as => List.filter_map
  simp only [accept, delayed, hfilter, insertOrdered_delayed, ← List.map_singleton,
    ← List.map_append, hcomparable]

theorem offer_delayed : (o.delayed d).offer ctx (a.delayed d) = (o.offer ctx a).delayed d := by
  have hany : ((o.delayed d).labels.any fun b => b.beats ctx (a.delayed d)) =
      o.labels.any fun b => b.beats ctx a := by
    simp only [delayed, List.any_map, Function.comp_def, Arrival.beats_delayed]
  unfold offer
  rw [hany, accept_delayed]
  split <;> rfl

theorem foldl_offer_delayed {as : List (Arrival R)} :
    (as.map (.delayed d)).foldl (offer ctx) (o.delayed d) =
      (as.foldl (offer ctx) o).delayed d := by
  induction as generalizing o with
  | nil => rfl
  | cons a as ih => rw [List.map_cons, List.foldl_cons, offer_delayed, ih, List.foldl_cons]

/-- Where everything has cost more, a step leads to where everything has. -/
theorem step?_delayed :
    (o.delayed d).step? ctx region = (o.step? ctx region).map (.delayed d) := by
  unfold step? delayed
  cases o.waiting with
  | nil => rfl
  | cons a as =>
    have hfold : ((a.next ctx).map (.delayed d)).foldl (offer ctx)
        (({ o with waiting := as } : Outline R).delayed d) =
          ((a.next ctx).foldl (offer ctx) { o with waiting := as }).delayed d :=
      foldl_offer_delayed
    have hregion : ((a.next ctx).map (Arrival.delayed d)).all
        (fun b => b.state.vertex ∈ region) = (a.next ctx).all fun b => b.state.vertex ∈ region :=
      List.all_map
    simp only [List.map_cons, Arrival.isFinal_delayed, Arrival.next_delayed, hregion]
    split
    · exact congrArg some hfold
    · rfl

theorem steps?_delayed :
    (o.delayed d).steps? ctx region n = (o.steps? ctx region n).map (.delayed d) := by
  induction n generalizing o with
  | zero => rfl
  | succ n ih =>
    simp only [steps?, step?_delayed, Option.bind_map, Option.map_bind, Function.comp_def, ih]

theorem steps?_add : o.steps? ctx region (n + m) =
    (o.steps? ctx region n).bind (steps? ctx region m) := by
  induction n generalizing o with
  | zero => simp [steps?]
  | succ n ih => simp only [Nat.add_right_comm n 1 m, steps?, Option.bind_assoc, ih]

/-- What comes back to itself, later by some costs, goes on for ever. -/
theorem steps?_isSome (hn : 0 < n) (h : o.steps? ctx region n = some (o.delayed d)) (m : Nat) :
    (o.steps? ctx region m).isSome := by
  induction m using Nat.strong_induction_on with
  | _ m ih =>
    rcases Nat.lt_or_ge m n with hlt | hge
    · obtain ⟨k, rfl⟩ := Nat.exists_eq_add_of_lt hlt
      rw [Nat.add_assoc, steps?_add] at h
      exact Option.isSome_of_mem (Option.bind_eq_some_iff.1 h).choose_spec.1
    · obtain ⟨k, rfl⟩ := Nat.exists_eq_add_of_le hge
      rw [steps?_add, h, Option.bind_some, steps?_delayed, Option.isSome_map]
      exact ih k (by omega)

/-- A search that an outline which comes back depicts never finds anything. -/
theorem Depicts.found_run {search : Search R} (H : o.Depicts region search)
    (hreached : search.Reached ctx) (hshort : search.found.length < ctx.request.numItineraries)
    (hn : 0 < n) (h : o.steps? ctx region n = some (o.delayed d)) :
    (Search.run ctx m search).1.found = search.found := by
  obtain ⟨o', hsteps⟩ := Option.isSome_iff_exists.1 (steps?_isSome hn h m)
  obtain ⟨next, -, hfound, -, hrun⟩ := H.run hreached hshort hsteps
  rw [← Nat.add_zero m, hrun, Search.run_zero_fst, hfound]

/-- The outline of a search that has just started. -/
def start (ctx : Context R) : Outline R :=
  (⟨[], []⟩ : Outline R).accept ctx ⟨.initial ctx.origin, false⟩

theorem depicts_start : (start ctx).Depicts region (Search.start ctx) := by
  have hempty : (⟨[], []⟩ : Outline R).Depicts region (Search.empty ctx.request.dominance) := by
    refine ⟨fun _ => ⟨fun h => absurd h List.not_mem_nil, fun h => ?_⟩, rfl⟩
    obtain ⟨⟨i, hi⟩, -⟩ := h
    obtain ⟨-, s, hs, -⟩ := Search.arrival?_eq_some_iff.1 hi
    simp [Search.empty, StateStore.empty, StateStore.get?] at hs
  have hfresh : (Search.empty ctx.request.dominance : Search R).Queued := by
    refine ⟨fun i hi => absurd hi List.not_mem_nil, .nil, fun hs _ => ?_⟩
    simp [Search.empty, StateStore.empty, StateStore.get?] at hs
  have hserved : (Search.empty ctx.request.dominance).Served ctx :=
    ⟨.nil, fun w hw => absurd hw List.not_mem_nil⟩
  have hparent : (Search.empty ctx.request.dominance).store.HoldsParent
      (.initial ctx.origin : State R) := fun p hp => by cases hp
  rw [Search.start_eq]
  exact hempty.accept .empty hserved hfresh hparent

end Outline

/-- Once the outline of a search comes back, in a region that the search does not leave, nothing is
found any more. -/
theorem Context.found_eq_nil_of_recurs [Geodesy R] {region region' : List VertexIndex}
    {n m k : Nat} (hcount : 0 < ctx.request.numItineraries) (hsub : region' ⊆ region) (hn : 0 < n)
    (hrecurs : ∃ o ∈ (Outline.start ctx).steps? ctx region m,
      (o.within region').steps? ctx region' n = some ((o.within region').delayed d)) :
    (Search.run ctx (m + k) (Search.start ctx)).1.found = [] := by
  obtain ⟨o, hstart, hrecurs⟩ := hrecurs
  have hfirst : (Outline.start ctx).Depicts region (Search.start ctx) := Outline.depicts_start
  obtain ⟨next, hnext, hfound, hdepicts, hrun⟩ :=
    hfirst.run .start (by rwa [Search.start_found]) hstart
  rw [Search.start_found] at hfound
  rw [hrun, (hdepicts.within hsub).found_run hnext (by rwa [hfound]) hn hrecurs, hfound]

end TripPlanner
