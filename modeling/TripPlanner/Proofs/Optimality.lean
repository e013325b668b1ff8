import TripPlanner.Proofs.Domination
import TripPlanner.Proofs.Measures
import TripPlanner.Proofs.Serving
import TripPlanner.Proofs.Soundness

/-!
# Optimality

A search that goes by weight alone finds a way of least weight first. What it drops is undercut by a
state that counts: one that can go the same ways and weighs no more (`Context.Undercuts`). So until
something was found, a state waits that weighs no more than any way to the destination
(`Search.Reached.exists_waiting`), and the state that is served next weighs no more than that.

What a turn costs depends on the street one came over, at which dominance does not look. Crossings
have to flow freely, therefore, and where a street may be crossed onto itself this must not give any
time back.
-/

namespace TripPlanner

/-- Where a street ends and another one starts, the crossing flows freely. -/
def Graph.FlowsFreely {R : Type} (g : Graph R) : Prop :=
  ∀ p ∈ g.edges.entries, ∀ q ∈ g.edges.entries, p.1 ≠ q.1 → p.2.street?.isSome →
    q.2.street?.isSome → p.2.target = q.2.source → g.isFreeFlowing p.2.target = true

instance {R : Type} : DecidablePred (Graph.FlowsFreely (R := R)) := fun g =>
  inferInstanceAs (Decidable (∀ p ∈ g.edges.entries, ∀ q ∈ g.edges.entries, p.1 ≠ q.1 →
    p.2.street?.isSome → q.2.street?.isSome → p.2.target = q.2.source →
      g.isFreeFlowing p.2.target = true))

/-- The directions of a street that leads around to its own start are no more than a full circle
apart, unless the crossing there flows freely. -/
def Graph.LoopsWithinCircle {R : Type} (g : Graph R) : Prop :=
  ∀ p ∈ g.edges.entries, ∀ street ∈ p.2.street?, p.2.target = p.2.source →
    g.isFreeFlowing p.2.target = true ∨ |street.endAngle - street.startAngle| ≤ 360

instance {R : Type} : DecidablePred (Graph.LoopsWithinCircle (R := R)) := fun g =>
  inferInstanceAs (Decidable (∀ p ∈ g.edges.entries, ∀ street ∈ p.2.street?,
    p.2.target = p.2.source →
      g.isFreeFlowing p.2.target = true ∨ |street.endAngle - street.startAngle| ≤ 360))

variable {R : Type} [Field R] [LinearOrder R] [IsStrictOrderedRing R] [FloorRing R]

namespace Context

variable {ctx : Context R} {s t a b c w : State R} {e : EdgeIndex} {es : List EdgeIndex}
  {edge : Edge R} {street : Street R} {store : StateStore R}

theorem NeverLowers.chain (H : ctx.NeverLowers) (ha : ctx.Reachable a) (h : ctx.Chain a es t) :
    a.costs ≤ t.costs := by
  induction h with
  | nil => exact le_rfl
  | cons hstep _ ih => exact (H ha hstep).trans (ih (ha.step hstep))

/-! ## Turns -/

/-- A turn takes no time, but for one from a street onto itself. -/
theorem turnDelay_eq_zero_or (hflow : ctx.graph.FlowsFreely) (hloops : ctx.graph.LoopsWithinCircle)
    (hs : ctx.Reachable s) (hedge : ctx.graph.edge? e = some edge)
    (hsource : edge.source = s.vertex) (hkind : edge.kind = .street street) (mode : Mode)
    (speed : R) : ctx.turnDelay s street mode speed = 0 ∨
      s.backStreet? = some e ∧ |street.endAngle - street.startAngle| ≤ 360 := by
  cases hback : s.backStreet? with
  | none =>
    left
    simp [turnDelay, hback]
  | some f =>
    obtain ⟨a, id, back, source, move, -, hf, hkind', -, rfl⟩ := hs.of_backStreet? hback
    have hstreet : ctx.graph.street? f = some source :=
      Graph.street?_eq_some_iff.2 ⟨back, hf, hkind'⟩
    have hfree : ctx.graph.isFreeFlowing back.target = true →
        ctx.turnDelay (a.after id f back move) street mode speed = 0 := by
      intro hfree
      simp [turnDelay, hback, hstreet, Crossing.delay, hfree]
    by_cases hsame : f = e
    · subst hsame
      cases hf.symm.trans hedge
      have hstarts : street ∈ edge.street? := by simp [Edge.street?, EdgeKind.street?, hkind]
      rcases hloops _ (Graph.mem_entries_iff.2 hedge) street hstarts hsource.symm with h | hangle
      · exact .inl (hfree h)
      · exact .inr ⟨rfl, hangle⟩
    · have hends : back.street?.isSome := by simp [Edge.street?, EdgeKind.street?, hkind']
      have hstarts : edge.street?.isSome := by simp [Edge.street?, EdgeKind.street?, hkind]
      exact .inl (hfree (hflow _ (Graph.mem_entries_iff.2 hf) _ (Graph.mem_entries_iff.2 hedge)
        hsame hends hstarts hsource.symm))

/-- The search goes by weight alone, and no turn onto another street takes time. -/
structure GoesByWeight (ctx : Context R) : Prop where
  paced : ctx.IsPaced
  edges : ∀ {e edge}, ctx.graph.edge? e = some edge → edge.kind.IsMeasured
  flows : ctx.graph.FlowsFreely
  loops : ctx.graph.LoopsWithinCircle
  untimed : ctx.graph.IsUntimed
  rule : ctx.request.dominance = .minimumWeight
  trivial : ctx.request.heuristic = .trivial

namespace GoesByWeight

theorem delaysTurns (H : ctx.GoesByWeight) : ctx.DelaysTurns := by
  intro s e edge street hs hedge hsource hkind mode
  rcases turnDelay_eq_zero_or H.flows H.loops hs hedge hsource hkind mode
      (ctx.streetSpeed street mode) with hzero | ⟨hback, hangle⟩
  · rw [hzero]
  · have hmeasured := H.edges hedge
    rw [hkind] at hmeasured
    have hstreet := Graph.street?_eq_some_iff.2 ⟨edge, hedge, hkind⟩
    simp only [turnDelay, hback, Option.bind_some, hstreet]
    exact Crossing.delay_nonneg hangle (H.paced.streetSpeed_pos hmeasured.2.1)

theorem neverLowers (H : ctx.GoesByWeight) : ctx.NeverLowers :=
  H.paced.neverLowers H.edges H.delaysTurns

theorem remainingWeight [Geodesy R] (H : ctx.GoesByWeight) (v : VertexIndex) :
    ctx.remainingWeight v = 0 :=
  remainingWeight_of_trivial H.trivial

end GoesByWeight

/-! ## Undercutting -/

/-- `a` can go where `b` can go, and weighs no more. -/
structure Undercuts (ctx : Context R) (a b : State R) : Prop where
  covers : ctx.Covers a b
  weight : a.weight ≤ b.weight

theorem Undercuts.trans (H : ctx.Undercuts a b) (H' : ctx.Undercuts b c) : ctx.Undercuts a c :=
  ⟨H.covers.trans H'.covers, H.weight.trans H'.weight⟩

theorem GoesByWeight.justifies [Geodesy R] (H : ctx.GoesByWeight) :
    ctx.Justifies ctx.Undercuts where
  refl _ := ⟨.refl _, le_rfl⟩
  trans _ _ := .trans
  of_dominates hgrown ha _ hv h := by
    have houtdoes := Outdoes.of_dominates hgrown ha H.untimed.not_boardsAfterChange hv h
    have hcost := houtdoes.cost
    rw [H.rule, DominanceRule.noWorse_iff] at hcost
    exact ⟨.of_dominates hv houtdoes.plane h, hcost⟩

/-- Where `a` goes on to, `w` goes on to at no more weight. If the edge is a street that leads
around to its start, and `w` has come over it already, `w` need not go on. -/
theorem Undercuts.follows (H : ctx.Undercuts w a) (hctx : ctx.GoesByWeight) (hw : ctx.Reachable w)
    (ha : ctx.Reachable a) (h : ctx.Follows a e b) (i : StateId) :
    ctx.Undercuts w b ∨ ∃ w', (e, w') ∈ ctx.successors i w ∧ ctx.Undercuts w' b := by
  have hrises := (hctx.neverLowers ha h).2.1
  obtain ⟨id, edge, move, hedge, hsource, hmove, rfl⟩ := h.cases
  obtain ⟨hopen, hmoves⟩ := move?_eq_some_iff.1 hmove
  obtain ⟨move', hmoves', hplane, hcost⟩ := H.covers.moves hmoves
  have hsource' : edge.source = w.vertex := hsource.trans H.covers.vertex.symm
  have hmem := mem_successors_of_move? hedge hsource' (hmoves'.move? hopen) i
  have hcovers : ctx.Covers (w.after i e edge move') (a.after id e edge move) :=
    .of_back rfl rfl hplane
  rcases hcost with hcost | ⟨street, mode, hkind, rfl, rfl⟩
  · exact .inr ⟨_, hmem, hcovers, add_le_add H.weight hcost.le⟩
  · rcases turnDelay_eq_zero_or hctx.flows hctx.loops hw hedge hsource' hkind
      mode (ctx.streetSpeed street mode) with hzero | ⟨hback, -⟩
    · have hturn : (ctx.alongStreet w street mode).cost ≤ (ctx.alongStreet a street mode).cost := by
        simp only [alongStreet, hzero]
        exact add_le_add_right (hctx.delaysTurns ha hedge hsource hkind mode) _
      exact .inr ⟨_, hmem, hcovers, add_le_add H.weight hturn⟩
    · have hback' := State.backStreet?_eq_some_iff.1 hback
      have hclass : edge.edgeClass = .street := by simp [Edge.edgeClass, EdgeKind.edgeClass, hkind]
      have hv : w.vertex = edge.target := by
        obtain ⟨_, _, edge', _, _, -, hedge', -, -, rfl⟩ := hw.of_backStreet? hback
        cases hedge.symm.trans hedge'
        rfl
      refine .inl ⟨.of_back hv ?_ H.covers.plane, H.weight.trans hrises⟩
      rw [State.after_back, hback', hclass]

theorem Grown.itineraryTo_weight {id : StateId} (H : ctx.Grown store)
    (hs : store.get? id = some s) : (ctx.itineraryTo store id).weight = s.weight := by
  rw [Itinerary.weight, Itinerary.ofLast, (H.trail_itineraryTo hs).getLast?]
  rfl

end Context

/-! ## What is found first -/

namespace Search

variable [Geodesy R] {ctx : Context R} {search rest : Search R} {s t a w : State R}
  {i id : StateId} {es : List EdgeIndex} {v : VertexIndex}

/-- Before anything is found, a state waits that weighs no more than a way to the destination. -/
theorem Reached.exists_waiting (hreached : search.Reached ctx) (H : ctx.GoesByWeight)
    (hnone : search.found = []) (hchain : ctx.Chain a es t) (hfinal : ctx.isFinal t = true)
    (ha : ctx.Reachable a) (hheld : search.HeldBy ctx.Undercuts a) :
    ∃ i ∈ search.queue.ids, ∃ w, search.store.get? i = some w ∧ search.tree.isPruned i = false ∧
      w.weight ≤ t.weight := by
  have hcons := hreached.consistent
  have hcosts : ctx.NeverLowers := H.neverLowers
  have hsettled : ∀ {v i w}, i ∈ search.tree.at? v → search.store.get? i = some w →
      i ∈ search.queue.ids ∨ search.Closed ctx ctx.Undercuts i w := by
    intro v i w hi hw
    rcases hreached.settled H.justifies hi hw with h | h | h
    · exact .inl h
    · rw [hnone] at h
      exact absurd h List.not_mem_nil
    · exact .inr h
  -- Along the way, a state that counts undercuts the one that is reached, or one waits already.
  induction hchain with
  | nil =>
    obtain ⟨i, hi, w, hw, hunder⟩ := hheld
    rcases hsettled hi hw with hwaits | hclosed
    · exact ⟨i, hwaits, w, hw, hcons.kept.counts hi, hunder.weight⟩
    · rw [← hunder.covers.isFinal, hclosed.1] at hfinal
      cases hfinal
  | cons hstep htail ih =>
    obtain ⟨i, hi, w, hw, hunder⟩ := hheld
    rcases hsettled hi hw with hwaits | hclosed
    · have hrises := (hcosts.chain ha (.cons hstep htail)).2.1
      exact ⟨i, hwaits, w, hw, hcons.kept.counts hi, hunder.weight.trans hrises⟩
    · apply ih hfinal (ha.step hstep)
      have hw' := hcons.grown.reachable hw
      rcases hunder.follows H hw' ha hstep i with hunder' | ⟨w', hmem, hunder'⟩
      · have hv := hunder.covers.vertex.symm.trans hunder'.covers.vertex
        exact ⟨i, hv ▸ hi, w, hw, hunder'⟩
      · obtain ⟨j, hj, x, hx, hunder''⟩ := hclosed.2 _ hmem
        exact ⟨j, hunder'.covers.vertex ▸ hj, x, hx, hunder''.trans hunder'⟩

/-- What is served before anything is found weighs no more than a way to the destination. -/
theorem Reached.weight_le_of_next? (hreached : search.Reached ctx) (H : ctx.GoesByWeight)
    (hnone : search.found = []) (hchain : ctx.Chain (.initial ctx.origin) es t)
    (hfinal : ctx.isFinal t = true) (hnext : search.next? = some (id, rest))
    (hs : search.store.get? id = some s) : s.weight ≤ t.weight := by
  obtain ⟨i, hi, w, hw, hcounts, hle⟩ := hreached.exists_waiting H hnone hchain hfinal .origin
    (hreached.heldBy_origin H.justifies)
  obtain ⟨x, hx, rfl⟩ := List.mem_map.1 hi
  obtain ⟨w', hw', hpriority⟩ := hreached.served.priced x hx
  cases hw.symm.trans hw'
  have hserved := hreached.served.priority_le hnext hs hx hcounts
  rw [hpriority, H.remainingWeight, H.remainingWeight, add_zero, add_zero] at hserved
  exact hserved.trans hle

/-- The first state found, if there is one, weighs no more than the bound. -/
def FirstWithin (search : Search R) (bound : R) : Prop :=
  ∀ i ∈ search.found.head?, ∃ s, search.store.get? i = some s ∧ s.weight ≤ bound

theorem FirstWithin.expand {bound : R} (H : search.FirstWithin bound) :
    (search.expand ctx id s).FirstWithin bound := by
  refine expand_keeps (P := fun search => search.FirstWithin bound) (fun _ _ h => h) ?_ H
  intro search e next _ _ H i hi
  obtain ⟨s, hs, hle⟩ := H i hi
  exact ⟨s, StateStore.get?_push_of_get? hs, hle⟩

theorem Reached.firstWithin (hreached : search.Reached ctx) (H : ctx.GoesByWeight)
    (hchain : ctx.Chain (.initial ctx.origin) es t) (hfinal : ctx.isFinal t = true) :
    search.FirstWithin t.weight := by
  refine hreached.induct (P := fun search => search.FirstWithin t.weight) ?_ ?_
  · intro i hi
    rw [start_found] at hi
    cases hi
  · intro search rest id s hreached ih hnext _ hs _
    obtain ⟨hstore, -, hfound⟩ := next?_rest hnext
    have hrest : rest.FirstWithin t.weight := by
      rw [FirstWithin, hstore, hfound]
      exact ih
    rw [settle_eq hs]
    split
    · intro i hi
      cases hfirst : rest.found with
      | nil =>
        simp only [hfirst, List.nil_append, List.head?_cons, Option.mem_some_iff] at hi
        subst hi
        exact ⟨s, hs, hreached.weight_le_of_next? H (hfound ▸ hfirst) hchain hfinal hnext
          (hstore ▸ hs)⟩
      | cons j found =>
        simp only [hfirst, List.cons_append, List.head?_cons, Option.mem_some_iff] at hi
        exact hrest i (by rw [hfirst, hi]; rfl)
    · exact FirstWithin.expand hrest

end Search

/-- The first itinerary weighs no more than any way to the destination. -/
theorem Graph.weight_le_of_findPaths [Geodesy R] {g : Graph R} {request : Request R}
    {ctx : Context R} {paths : List (Itinerary R)} (hctx : Context.of request g = .ok ctx)
    (hedges : ∀ p ∈ g.edges.entries, p.2.kind.IsMeasured) (hflow : g.FlowsFreely)
    (hloops : g.LoopsWithinCircle) (huntimed : g.IsUntimed) (hrequest : request.IsMeasured)
    (hrule : request.dominance = .minimumWeight) (htrivial : request.heuristic = .trivial)
    (h : ctx.findPaths = .ok paths) : ∃ first rest, paths = first :: rest ∧
      ∀ es s, ctx.Chain (.initial ctx.origin) es s → ctx.isFinal s = true →
        first.weight ≤ s.weight := by
  obtain ⟨triangle, hplaced⟩ := Context.request_of hctx
  obtain rfl := Context.graph_of hctx
  have H : ctx.GoesByWeight :=
    { paced := Context.isPaced_of hctx hrequest
      edges := fun he => hedges _ (Graph.mem_entries_iff.2 he)
      flows := hflow
      loops := hloops
      untimed := huntimed
      rule := by rw [hplaced, hrule]
      trivial := by rw [hplaced, htrivial] }
  obtain ⟨hfound, rfl⟩ := Context.findPaths_eq_ok_iff.1 h
  obtain ⟨i, found, hi⟩ := List.exists_cons_of_ne_nil hfound
  refine ⟨_, _, by rw [Search.itineraries, hi, List.map_cons], fun es s hchain hfinal => ?_⟩
  have hreached := ctx.search_reached
  obtain ⟨t, ht, hle⟩ := hreached.firstWithin H hchain hfinal i (by rw [hi]; rfl)
  rw [hreached.consistent.grown.itineraryTo_weight ht]
  exact hle

/-! ## Two ways to work -/

namespace Bypass

/-- Two streets that meet at a corner, and a longer one past it. -/
def graph : Graph ℚ :=
  .build
    [.intersection "home" ⟨0, 0⟩, .intersection "corner" ⟨1, 0⟩, .intersection "work" ⟨2, 0⟩]
    [(0, 1, .street (.plain 1 1000 .allStreet)), (1, 2, .street (.plain 2 1000 .allStreet)),
      (0, 2, .street (.plain 3 2500 .allStreet))]

/-- A walk to work. -/
def request : Request ℚ :=
  { Corners.onFoot 0 2 with dominance := .minimumWeight, heuristic := .trivial }

/-- The walk placed on the network. -/
def walk : Context ℚ := .placed request graph 0 2 ⟨0, 0⟩ ⟨2, 0⟩

theorem of_request : Context.of request graph = .ok walk :=
  Context.of_placed (by decide +kernel) rfl rfl (by decide +kernel) (by decide +kernel) (by decide)

/-- No way to work weighs less than the itinerary. -/
theorem weight_le_bypass : ∃ first rest, walk.findPaths = .ok (first :: rest) ∧
    ∀ es s, walk.Chain (.initial 0) es s → walk.isFinal s = true → first.weight ≤ s.weight := by
  have hfound : walk.search.1.found ≠ [] := by decide +kernel
  have h := Context.findPaths_eq_ok_iff.2 ⟨hfound, rfl⟩
  obtain ⟨first, rest, hpaths, hle⟩ := Graph.weight_le_of_findPaths of_request (by decide +kernel)
    (by decide) (by decide) (by decide) (by decide +kernel) rfl rfl h
  exact ⟨first, rest, hpaths ▸ h, hle⟩

end Bypass

/-! ## A street that winds around its own start -/

namespace Spiral

/-- A street from home that turns almost three times on its way back there, and a link to work. -/
def graph : Graph ℚ :=
  .build [.intersection "home" ⟨0, 0⟩, .intersection "work" ⟨1, 0⟩]
    [(0, 0, .street ((Street.plain 1 1 .allStreet).withAngles 0 1000)), (0, 1, .link 20)]

/-- A walk to work, at a metre a second. -/
def request : Request ℚ :=
  { Corners.onFoot 0 1 with
    walkSpeed := 1
    walkReluctance := 1
    dominance := .minimumWeight
    heuristic := .trivial }

/-- The walk placed on the network. -/
def walk : Context ℚ := .placed request graph 0 1 ⟨0, 0⟩ ⟨1, 0⟩

/-- Whoever goes around twice gains more time at the crossing than it takes. All else that is asked
of a network holds. -/
theorem lighter_around : Context.of request graph = .ok walk ∧
    (∀ p ∈ graph.edges.entries, p.2.kind.IsMeasured) ∧ graph.FlowsFreely ∧ graph.IsUntimed ∧
    request.IsMeasured ∧ request.dominance = .minimumWeight ∧ request.heuristic = .trivial ∧
    (∃ paths, walk.findPaths = .ok paths ∧ paths.map Itinerary.weight = [20]) ∧
    ∃ s, walk.Chain (.initial 0) [0, 0, 1] s ∧ walk.isFinal s = true ∧ s.weight = -10 := by
  have hctx : Context.of request graph = .ok walk := Context.of_placed (by decide) rfl rfl
    (by decide +kernel) (by decide +kernel) (by decide)
  have hpaths : walk.findPaths = .ok (walk.search.1.itineraries walk) := by
    have hfound : walk.search.1.found ≠ [] := by decide +kernel
    exact Context.findPaths_eq_ok_iff.2 ⟨hfound, rfl⟩
  refine ⟨hctx, by decide +kernel, by decide, by decide, by decide +kernel, rfl,
    rfl, ⟨_, hpaths, by decide +kernel⟩, ?_⟩
  have hround : ((walk.walk? (.initial 0) [0, 0, 1]).any fun s =>
      walk.isFinal s && s.weight = -10) = true := by decide +kernel
  obtain ⟨s, hchain, hs⟩ := Context.exists_chain_of_walk? hround
  obtain ⟨hfinal, hweight⟩ := Bool.and_eq_true_iff.1 hs
  exact ⟨s, hchain, hfinal, of_decide_eq_true hweight⟩

end Spiral

end TripPlanner
