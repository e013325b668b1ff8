import Mathlib.Logic.Relation
import Mathlib.Order.Interval.Finset.Basic
import TripPlanner.Proofs.Rank
import TripPlanner.Proofs.Serving

/-!
# Infinite supplies

Of the states of a run that does not end, only finitely many last without being pruned, save those
that came by a timed transfer (`Context.History.lasts_finite`): of infinitely many, one would
dominate another one. So a vertex at which infinitely many arrive is supplied over edges that
dominance exempts (`Context.Exempt`), for of the other arrivals those of least rank last
(`Context.History.arrivals_finite`).
-/

namespace TripPlanner

/-- A timed transfer ends at the vertex. -/
def Graph.EndsChange {R : Type} (g : Graph R) (v : VertexIndex) : Prop :=
  ∃ e edge, g.edge? e = some edge ∧ edge.edgeClass = .timedTransfer ∧ edge.target = v

section
variable {R : Type} [Field R] [LinearOrder R] [IsStrictOrderedRing R] [FloorRing R] [Geodesy R]
  {ctx : Context R}

/-- The search goes by an estimate that is not even. -/
def Context.GuidedUnevenly (ctx : Context R) : Prop :=
  ctx.request.heuristic = .euclidean ∧ ¬ ctx.EstimatesEvenly

/-- An open edge leads from one vertex to the other over which states arrive that dominance leaves
alone. Where an uneven estimate guides the search, these are also the ones that it prefers at any
price. -/
def Context.Exempt (ctx : Context R) (u v : VertexIndex) : Prop :=
  ∃ e edge, ctx.graph.edge? e = some edge ∧ ctx.graph.isBlocked edge = false ∧
    edge.source = u ∧ edge.target = v ∧ (edge.edgeClass = .timedTransfer ∨
      ctx.request.dominance = .pareto ∧ ctx.GuidedUnevenly ∧
        edge.edgeClass = .board ∧ ctx.graph.EndsChange u)

theorem Context.wellFounded_exempt
    (hacyclic : ∀ v, ¬ Relation.TransGen ctx.Exempt v v) : WellFounded ctx.Exempt := by
  let ends : Set VertexIndex :=
    (fun p => p.2.source) '' ctx.edgeSet ∪ (fun p => p.2.target) '' ctx.edgeSet
  have hends : ends.Finite := (ctx.edgeSet_finite.image _).union (ctx.edgeSet_finite.image _)
  have : IsStrictOrder VertexIndex (Relation.TransGen ctx.Exempt) :=
    { irrefl := hacyclic, trans := fun _ _ _ => Relation.TransGen.trans }
  have hwf : ends.WellFoundedOn (Relation.TransGen ctx.Exempt) := hends.wellFoundedOn
  refine Subrelation.wf (fun {u v} h => ?_) (Set.wellFoundedOn_iff.1 hwf)
  obtain ⟨e, edge, hedge, -, rfl, rfl, -⟩ := id h
  exact ⟨.single h, .inl ⟨(e, edge), hedge, rfl⟩, .inr ⟨(e, edge), hedge, rfl⟩⟩

/-- No edge is exempt where no timed transfer is made. -/
theorem Context.not_exempt
    (h : ∀ p ∈ ctx.graph.edges.entries, p.2.edgeClass ≠ .timedTransfer) (u v : VertexIndex) :
    ¬ ctx.Exempt u v := by
  rintro ⟨e, edge, hedge, -, -, -, hclass | ⟨-, -, -, e', edge', hedge', hclass, -⟩⟩
  · exact h _ (Graph.mem_entries_iff.2 hedge) hclass
  · exact h _ (Graph.mem_entries_iff.2 hedge') hclass

end

namespace Context.History

section
variable {R : Type} [Field R] [LinearOrder R] [IsStrictOrderedRing R] [FloorRing R] [Geodesy R]
  {ctx : Context R} {st : Nat → State R} {i : Nat} {v : VertexIndex}

/-- The states of a history at a vertex. -/
def arrivals (st : Nat → State R) (v : VertexIndex) : Set Nat := {i | (st i).vertex = v}

/-- Those that dominance leaves alone or, where an uneven estimate guides the search, prefers at any
price. -/
def exemptArrivals (ctx : Context R) (st : Nat → State R) (v : VertexIndex) : Set Nat :=
  {i ∈ arrivals st v | (st i).arrivedVia .timedTransfer = true ∨
    ctx.GuidedUnevenly ∧ ctx.Preferred st i}

omit [Geodesy R] in
theorem endsChange_of_arrivedVia {s : State R} (hs : ctx.Reachable s)
    (h : s.arrivedVia .timedTransfer = true) : ctx.graph.EndsChange s.vertex := by
  cases hs with
  | origin => simp [State.initial, State.arrivedVia] at h
  | step _ hstep =>
    obtain ⟨id, edge, move, hedge, -, -, rfl⟩ := hstep.cases
    exact ⟨_, edge, hedge, by simpa using h, rfl⟩

/-- An exempt state arrives over an exempt edge. -/
theorem exempt_parent (H : ctx.History st) (hi : i ∈ exemptArrivals ctx st v) :
    ∃ p, (st i).parent = some p ∧ ctx.Exempt (st p).vertex v := by
  obtain ⟨rfl, hclass⟩ := hi
  have hpos : 0 < i := by
    refine Nat.pos_of_ne_zero fun hzero => ?_
    rw [hzero] at hclass
    rcases hclass with h | ⟨-, -, h, -⟩ <;> simp [State.arrivedVia, H.origin, State.initial] at h
  obtain ⟨p, e, hstep⟩ := H.parent hpos
  have hparent := parent_of_mem_successors hstep
  obtain ⟨edge, hedge, hopen, hsource, htarget, hback⟩ := edge_of_mem_successors hstep
  refine ⟨p, hparent, e, edge, hedge, hopen, hsource, htarget, ?_⟩
  rcases hclass with h | ⟨hguided, hpareto, h, p', hp', htimed⟩
  · exact .inl (by simpa [State.arrivedVia, hback] using h)
  · cases hparent.symm.trans hp'
    exact .inr ⟨hpareto, hguided, by simpa [State.arrivedVia, hback] using h,
      endsChange_of_arrivedVia (H.reachable p) htimed⟩

/-- Only finitely many states arrive over exempt edges from vertices with finitely many. -/
theorem exemptArrivals_finite (H : ctx.History st)
    (h : ∀ u, ctx.Exempt u v → (arrivals st u).Finite) : (exemptArrivals ctx st v).Finite := by
  have hsources : {u | ctx.Exempt u v}.Finite := by
    refine (ctx.edgeSet_finite.image fun p => p.2.source).subset ?_
    rintro _ ⟨e, edge, hedge, -, rfl, -⟩
    exact ⟨(e, edge), hedge, rfl⟩
  have hchildren : (⋃ u ∈ {u | ctx.Exempt u v}, ⋃ p ∈ arrivals st u,
      {i | (st i).parent = some p}).Finite :=
    hsources.biUnion fun u hu => (h u hu).biUnion fun p _ => H.children p
  refine hchildren.subset fun i hi => ?_
  obtain ⟨p, hp, hexempt⟩ := H.exempt_parent hi
  simp only [Set.mem_iUnion]
  exact ⟨_, hexempt, p, rfl, hp⟩

/-- All of the infinitely many states arrive somewhere, and there are finitely many places. -/
theorem not_forall_arrivals_finite (H : ctx.History st) : ¬ ∀ v, (arrivals st v).Finite := by
  intro hfinite
  have hplaces : ctx.places.Finite := (ctx.edgeSet_finite.image _).insert _
  have hall : (⋃ v ∈ Prod.fst '' ctx.places, arrivals st v).Finite :=
    (hplaces.image _).biUnion fun v _ => hfinite v
  refine Set.infinite_univ (hall.subset fun i _ => ?_)
  simp only [Set.mem_iUnion]
  exact ⟨_, ⟨_, (H.reachable i).mem_places, rfl⟩, rfl⟩

end

section
variable {R : Type} [Field R] [LinearOrder R] [IsStrictOrderedRing R] [FloorRing R] [Geodesy R]
  {ctx : Context R} {st : Nat → State R} {v : VertexIndex}

/-- A state that came by no timed transfer and is never pruned. -/
structure Lasts (ctx : Context R) (st : Nat → State R) (i : Nat) : Prop where
  plain : (st i).arrivedVia .timedTransfer = false
  unpruned : ∀ k, ¬ ctx.Prunes st k i

/-- Two lasting states in one situation, the later one at no lower cost: it cannot have been stored
while the first one counts. -/
theorem lasts_finite (hcosts : ctx.NeverLowers) (H : ctx.History st) :
    {i | Lasts ctx st i}.Finite := by
  by_contra hinf
  obtain ⟨φ, hφ, hlasts⟩ := Nat.exists_strictMono_subsequence fun n =>
    (Set.Infinite.exists_gt hinf n).imp fun _ h => ⟨h.2, h.1⟩
  have hequal := ctx.situations_finite.partiallyWellOrderedOn (r := Eq)
  have hpwo := hequal.prod hcosts.costs_isPWO
  obtain ⟨x, y, hxy, hsituation, hle⟩ := hpwo.exists_lt
    (f := fun n => ((st (φ n)).atRest, (st (φ n)).costs))
    fun n => ⟨⟨st (φ n), H.reachable _, rfl⟩, st (φ n), H.reachable _, rfl⟩
  have hv : (st (φ x)).vertex = (st (φ y)).vertex := (congrArg State.vertex hsituation :)
  have hback : (st (φ x)).back = (st (φ y)).back := (congrArg State.back hsituation :)
  have hplane : (st (φ x)).plane = (st (φ y)).plane := (congrArg State.plane hsituation :)
  have htimed := (hlasts x).plain
  have hside : onSameSide (st (φ x)) (st (φ y)) = true := by
    have hvia := State.arrivedVia_congr hback
    exact onSameSide_iff.2 ⟨congrArg _ hplane, hvia _, htimed, hvia _ ▸ htimed⟩
  have hfuture : ctx.futureDiffers (st (φ x)) (st (φ y)) = false :=
    Bool.eq_false_iff.2 fun h => (futureDiffers_iff.1 h).1 hback
  obtain ⟨k, hk⟩ := H.pruned (hφ hxy) hv hside hplane hfuture (DominanceRule.noWorse_of_le hle)
  exact (hlasts x).unpruned k hk

theorem ranks_isPWO (hcosts : ctx.NeverLowers) (H : ctx.History st) (s : Set Nat) :
    ((fun i => ctx.rank (st i)) '' s).IsPWO := by
  let place (p : Bool × R × R × R) : Bool ×ₗ R := toLex (p.1, ctx.request.dominance.price p.2)
  have hplace : Monotone place := fun p q h =>
    Prod.Lex.toLex_mono ⟨h.1, DominanceRule.price_mono h.2⟩
  have hpwo := (Set.toFinite (Set.univ : Set Bool)).isPWO.prod hcosts.costs_isPWO
  refine (hpwo.image_of_monotone hplace).mono ?_
  rintro _ ⟨i, -, rfl⟩
  exact ⟨(ctx.isSpecial (st i), (st i).costs), ⟨trivial, st i, H.reachable i, rfl⟩, rfl⟩

/-- Of any states some cost the least, whatever is made of the costs. -/
theorem exists_least (hcosts : ctx.NeverLowers) (H : ctx.History st) {f : R × R × R → R}
    (hf : Monotone f) {s : Set Nat} (hs : s.Nonempty) :
    ∃ i ∈ s, ∀ j ∈ s, f (st i).costs ≤ f (st j).costs := by
  have hpwo : ((fun i => f (st i).costs) '' s).IsPWO := by
    refine (hcosts.costs_isPWO.image_of_monotone hf).mono ?_
    rintro _ ⟨i, -, rfl⟩
    exact ⟨_, ⟨st i, H.reachable i, rfl⟩, rfl⟩
  obtain ⟨i, hi, hleast⟩ := hpwo.exists_minimalFor _ _ hs
  exact ⟨i, hi, fun j hj => (le_total _ _).elim id (hleast hj)⟩

/-- After every state of an infinite supply comes one that lasts, if only finitely many arrive over
exempt edges: one of least rank among those that follow these. -/
theorem exists_lasts (hcosts : ctx.NeverLowers) (hmix : ctx.Unmixed) (H : ctx.History st)
    (hguided : ctx.request.dominance = .pareto → ctx.GuidedUnevenly)
    (hexempt : (exemptArrivals ctx st v).Finite) (hinf : (arrivals st v).Infinite) (n : Nat) :
    ∃ i > n, Lasts ctx st i := by
  obtain ⟨m, hm⟩ := hexempt.bddAbove
  have hlater : {i ∈ arrivals st v | max m n < i}.Nonempty := by
    obtain ⟨i, hi, hlt⟩ := hinf.exists_gt (max m n)
    exact ⟨i, hi, hlt⟩
  have hbeyond : ∀ {k}, max m n < k → k ∉ exemptArrivals ctx st v := fun {k} hlt hk =>
    absurd (hm hk) (Nat.not_le_of_lt ((Nat.le_max_left m n).trans_lt hlt))
  obtain ⟨i, ⟨hi, hlt⟩, hleast⟩ := (H.ranks_isPWO hcosts _).exists_minimalFor _ _ hlater
  have hplain : (st i).arrivedVia .timedTransfer = false :=
    Bool.eq_false_iff.2 fun htimed => hbeyond hlt ⟨hi, .inl htimed⟩
  refine ⟨i, (Nat.le_max_right m n).trans_lt hlt, hplain, fun k hk => ?_⟩
  obtain ⟨hik, hv, -⟩ := later_of_prunes hk
  have hpreempts : ¬ ctx.Preempts st k i := fun h =>
    hbeyond (hlt.trans hik) ⟨hv.trans hi, .inr ⟨hguided h.1.1, h.1⟩⟩
  have hrank := rank_lt_of_prunes hmix hk hpreempts
  exact absurd (hleast ⟨hv.trans hi, hlt.trans hik⟩ hrank.le) hrank.not_ge

/-- Only finitely many states arrive at a vertex where finitely many arrive over exempt edges. -/
theorem arrivals_finite (hcosts : ctx.NeverLowers) (hmix : ctx.Unmixed) (H : ctx.History st)
    (hguided : ctx.request.dominance = .pareto → ctx.GuidedUnevenly)
    (hexempt : (exemptArrivals ctx st v).Finite) : (arrivals st v).Finite := by
  by_contra hinf
  obtain ⟨m, hm⟩ := (H.lasts_finite hcosts).bddAbove
  obtain ⟨i, hi, hlasts⟩ := H.exists_lasts hcosts hmix hguided hexempt hinf m
  exact absurd (hm hlasts) (Nat.not_le_of_lt hi)

end

end Context.History

end TripPlanner
