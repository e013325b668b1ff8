import TripPlanner.Proofs.Chronicle
import TripPlanner.Proofs.Slack
import TripPlanner.Proofs.Supply

/-!
# Even estimates

A search that an even estimate guides (`Context.EstimatesEvenly`), be it none at all, serves states
in the order of what they have cost and are estimated to cost still. This keeps even the boardings
that `DominanceRule.pareto` prefers at any price from supplying states without end
(`Context.Chronicle.false_of_estimatesEvenly`). If this priority goes on rising, then whenever it
has risen the state served from then on that takes the least time lasts: what comes later to the
same vertex neither takes less nor weighs less. If it comes to a halt, no boarding is served any
more, and a cheapest state among those that come from then on lasts.
-/

namespace TripPlanner

variable {R : Type} [Field R] [LinearOrder R] [IsStrictOrderedRing R] [FloorRing R]
  {ctx : Context R} {a b : State R} {e : EdgeIndex}

namespace Context

theorem Follows.costs_of_timedTransfer (h : ctx.Follows a e b)
    (htimed : b.arrivedVia .timedTransfer = true) : b.costs = a.costs := by
  obtain ⟨id, edge, move, -, -, hmove, rfl⟩ := h.cases
  have hclass : edge.kind.edgeClass = .timedTransfer := by
    rw [State.after_arrivedVia] at htimed
    exact of_decide_eq_true htimed
  cases (move?_eq_some_iff.1 hmove).2 with
  | timedTransfer hkind => exact State.after_costs.trans (add_zero _)
  | _ => simp_all [EdgeKind.edgeClass]

theorem EstimatesEvenly.remainingWeight_eq [Geodesy R] (H : ctx.EstimatesEvenly)
    (h : ctx.Follows a e b)
    (hvia : b.arrivedVia .timedTransfer = true ∨ b.arrivedVia .board = true) :
    ctx.remainingWeight a.vertex = ctx.remainingWeight b.vertex := by
  obtain ⟨id, edge, move, hedge, hsource, hmove, rfl⟩ := h.cases
  rw [State.after_arrivedVia, State.after_arrivedVia] at hvia
  rw [State.after_vertex, ← hsource]
  exact H.level hedge (move?_eq_some_iff.1 hmove).1
    (hvia.imp of_decide_eq_true of_decide_eq_true)

/-- A boarding takes its wait, and weighs more than that. -/
theorem Follows.costs_of_board (h : ctx.Follows a e b) (hboard : b.arrivedVia .board = true) :
    ∃ wait, b.elapsed = a.elapsed + wait ∧ b.weight = a.weight + (wait + Move.boardCost) := by
  obtain ⟨id, edge, move, -, -, hmove, rfl⟩ := h.cases
  have hclass : edge.kind.edgeClass = .board := by
    rw [State.after_arrivedVia] at hboard
    exact of_decide_eq_true hboard
  cases (move?_eq_some_iff.1 hmove).2 with
  | board hkind => exact ⟨_, rfl, rfl⟩
  | _ => simp_all [EdgeKind.edgeClass]

theorem boardCost_eq : (Move.boardCost : R) = 600 := by
  rw [Move.boardCost, Quantity.ofInt_eq_cast]
  norm_num

theorem two_mul_paretoSlack_lt : 2 * (paretoSlack : R) < Move.boardCost := by
  rw [boardCost_eq, paretoSlack, Quantity.ratio, Quantity.ofInt_eq_cast, Quantity.ofInt_eq_cast]
  norm_num

end Context

namespace Context.Chronicle

variable [Geodesy R] {st : Nat → State R} {served : Nat → StateId} {t i k : Nat} {s : Set Nat}

/-- The state comes, or is served, no sooner than the step. -/
def Late (st : Nat → State R) (served : Nat → StateId) (t i : Nat) : Prop :=
  ∃ n ≥ t, served n = i ∨ (st i).parent = some (served n)

omit [LinearOrder R] [IsStrictOrderedRing R] [FloorRing R] [Geodesy R] [Field R] in
theorem Late.of_le {t' : Nat} (h : t' ≤ t) (H : Late st served t i) : Late st served t' i :=
  H.imp fun _ hn => ⟨h.trans hn.1, hn.2⟩

/-- What prunes a state that comes late comes late. -/
theorem late_of_prunes (H : ctx.Chronicle st served) (hi : Late st served t i)
    (hk : ctx.Prunes st k i) : ∃ n ≥ t, (st k).parent = some (served n) := by
  obtain ⟨n, hn, rfl | hparent⟩ := hi
  · obtain ⟨m, hm, hk⟩ := H.prunedAfter hk
    exact ⟨m, hn.trans hm, hk⟩
  · have hlt := (later_of_prunes hk).1
    obtain ⟨m, hm⟩ := H.born (Nat.zero_lt_of_lt hlt)
    exact ⟨m, hn.trans (H.inOrder hlt hparent hm), hm⟩

theorem finite_born_before (H : ctx.Chronicle st served) (t : Nat) :
    {i | ∃ m < t, (st i).parent = some (served m)}.Finite := by
  refine ((Set.finite_Iio t).biUnion fun m _ => H.children (served m)).subset ?_
  rintro i ⟨m, hm, hp⟩
  exact Set.mem_biUnion (show m ∈ Set.Iio t from hm) hp

/-- Nothing comes or is served late for ever. -/
theorem exists_not_late (H : ctx.Chronicle st served) (hs : s.Finite) :
    ∃ t, ∀ i ∈ s, ¬ Late st served t i := by
  have hsteps : (⋃ i ∈ s, {n | served n = i ∨ (st i).parent = some (served n)}).Finite := by
    refine hs.biUnion fun i _ => ?_
    have hserved : {n | served n = i}.Subsingleton := fun n hn m hm => H.once (hn.trans hm.symm)
    have hborn : {n | (st i).parent = some (served n)}.Subsingleton := fun n hn m hm =>
      H.once (Option.some.inj (hn.symm.trans hm))
    exact hserved.finite.union hborn.finite
  obtain ⟨b, hb⟩ := hsteps.bddAbove
  refine ⟨b + 1, fun i hi hlate => ?_⟩
  obtain ⟨n, hn, hwhen⟩ := hlate
  have hle := hb (Set.mem_biUnion hi hwhen)
  omega

/-- Not at all times does one that lasts come late. -/
theorem not_forall_exists_lasts (H : ctx.Chronicle st served) (hcosts : ctx.NeverLowers) :
    ¬ ∀ t, ∃ i, Late st served t i ∧ History.Lasts ctx st i := by
  intro h
  obtain ⟨t, ht⟩ := H.exists_not_late (H.toHistory.lasts_finite hcosts)
  obtain ⟨i, hlate, hlasts⟩ := h t
  exact ht i hlasts hlate

/-- Every state has come over timed transfers from one that has not, and that was served unless it
is the state itself. -/
theorem exists_root (H : ctx.Chronicle st served) (heven : ctx.EstimatesEvenly) (i : Nat) : ∃ r,
    (st r).arrivedVia .timedTransfer = false ∧ (st r).costs = (st i).costs ∧
      ctx.remainingWeight (st r).vertex = ctx.remainingWeight (st i).vertex ∧
      (r = i ∨ ∃ n, served n = r) := by
  induction i using Nat.strong_induction_on with
  | _ i ih =>
    cases htimed : (st i).arrivedVia .timedTransfer with
    | false => exact ⟨i, htimed, rfl, rfl, .inl rfl⟩
    | true =>
      have hpos : 0 < i := by
        refine Nat.pos_of_ne_zero fun hzero => ?_
        rw [hzero, H.origin] at htimed
        simp [State.initial, State.arrivedVia] at htimed
      obtain ⟨p, e, hstep⟩ := H.parent hpos
      have hparent := parent_of_mem_successors hstep
      have hfollows : ctx.Follows (st p) e (st i) := .of_mem_successors hstep
      have hsame := hfollows.costs_of_timedTransfer htimed
      have hlevel := heven.remainingWeight_eq hfollows (.inl htimed)
      obtain ⟨r, hplain, hcosts, hrest, hserved⟩ := ih p (H.older hparent)
      refine ⟨r, hplain, hcosts.trans hsame.symm, hrest.trans hlevel, .inr ?_⟩
      rcases hserved with rfl | hserved
      · obtain ⟨n, hn⟩ := H.born hpos
        exact ⟨n, (Option.some.inj (hparent.symm.trans hn)).symm⟩
      · exact hserved

theorem exists_follows (H : ctx.Chronicle st served) {n : Nat}
    (hp : (st i).parent = some (served n)) : ∃ e, ctx.Follows (st (served n)) e (st i) := by
  obtain ⟨p, e, hstep⟩ := H.parent (Nat.zero_lt_of_lt (H.older hp))
  cases (parent_of_mem_successors hstep).symm.trans hp
  exact ⟨e, .of_mem_successors hstep⟩

theorem costs_le_of_parent (H : ctx.Chronicle st served) (hcosts : ctx.NeverLowers) {n : Nat}
    (hp : (st i).parent = some (served n)) : (st (served n)).costs ≤ (st i).costs := by
  obtain ⟨e, h⟩ := H.exists_follows hp
  exact hcosts (H.reachable _) h

/-- What comes to the vertex of a state after that was served weighs no less. -/
theorem weight_le_of_parent (H : ctx.Chronicle st served) (hprices : ctx.NeverLowersPriority)
    {n m : Nat} (hm : n ≤ m) (hp : (st i).parent = some (served m))
    (hv : (st i).vertex = (st (served n)).vertex) :
    (st (served n)).weight ≤ (st i).weight := by
  obtain ⟨e, h⟩ := H.exists_follows hp
  have hle := (H.inTurn hprices hm).trans (hprices (H.reachable _) h)
  change (st (served n)).weight + ctx.remainingWeight (st (served n)).vertex ≤
    (st i).weight + ctx.remainingWeight (st i).vertex at hle
  rw [hv] at hle
  exact (add_le_add_iff_right _).1 hle

/-! ## Rising priorities -/

/-- From the moment on at which the priorities have risen, one that lasts comes or is served. -/
theorem exists_lasts_of_rise (H : ctx.Chronicle st served)
    (hrule : ctx.request.dominance = .pareto) (hcosts : ctx.NeverLowers) (hmix : ctx.Unmixed)
    (heven : ctx.EstimatesEvenly)
    (hrise : ∀ n < t, (st (served n)).weight + ctx.remainingWeight (st (served n)).vertex <
      (st (served t)).weight + ctx.remainingWeight (st (served t)).vertex) :
    ∃ i, Late st served t i ∧ History.Lasts ctx st i := by
  let roots : Set Nat := {i | (st i).arrivedVia .timedTransfer = false ∧ ∃ n ≥ t, served n = i}
  -- The root of what is served from then on has its priority, and so is served from then on itself.
  have hroot : ∀ m ≥ t, ∃ i ∈ roots, (st i).costs = (st (served m)).costs := by
    intro m hm
    obtain ⟨r, hplain, hsame, hrest, rfl | ⟨n, rfl⟩⟩ := H.exists_root heven (served m)
    · exact ⟨_, ⟨hplain, m, hm, rfl⟩, rfl⟩
    · refine ⟨_, ⟨hplain, n, ?_, rfl⟩, hsame⟩
      by_contra! hlt
      have hweight : (st (served n)).weight = (st (served m)).weight :=
        congrArg (fun c => c.2.1) hsame
      have hle := H.inTurn heven.rises hm
      change _ ≤ (st (served m)).weight + ctx.remainingWeight (st (served m)).vertex at hle
      rw [← hweight, ← hrest] at hle
      exact absurd hle (hrise n hlt).not_ge
  obtain ⟨x, ⟨hplain, n, hn, rfl⟩, hleast⟩ := H.exists_least (f := Prod.fst) hcosts
    (fun _ _ h => h.1) ((hroot t le_rfl).imp fun _ h => h.1)
  have hlater : ∀ {k m}, n ≤ m → (st k).parent = some (served m) →
      (st k).vertex = (st (served n)).vertex →
      (st (served n)).elapsed ≤ (st k).elapsed ∧ (st (served n)).weight ≤ (st k).weight := by
    intro k m hm hk hv
    obtain ⟨r, hr, hsame⟩ := hroot m (hn.trans hm)
    have hfirst : (st r).elapsed = (st (served m)).elapsed := congrArg Prod.fst hsame
    have helapsed := (H.costs_le_of_parent hcosts hk).1
    exact ⟨(hleast r hr).trans (hfirst.trans_le helapsed),
      H.weight_le_of_parent heven.rises hm hk hv⟩
  have hslack : (0 : R) ≤ paretoSlack := paretoSlack_nonneg
  by_cases hlasts : History.Lasts ctx st (served n)
  · exact ⟨_, ⟨n, hn, .inl rfl⟩, hlasts⟩
  -- Only one that is not special can have pruned it, at about the same cost, and that one lasts.
  obtain ⟨k, hk⟩ : ∃ k, ctx.Prunes st k (served n) := by
    by_contra! hnone
    exact hlasts ⟨hplain, hnone⟩
  obtain ⟨m, hm, hborn⟩ := H.prunedAfter hk
  have hv := (later_of_prunes hk).2.1
  have hworse : ∀ {j}, (st (served n)).elapsed ≤ (st j).elapsed ∧
      (st (served n)).weight ≤ (st j).weight →
        ctx.request.dominance.noWorse (st (served n)) (st j) = true := by
    intro j hj
    rw [hrule, DominanceRule.noWorse_iff]
    exact ⟨le_add_of_le_of_nonneg hj.1 hslack, le_add_of_le_of_nonneg hj.2 hslack⟩
  obtain ⟨hspecial, hordinary⟩ := special_of_prunes hmix hk (hworse (hlater hm hborn hv))
  have hpreempts : ¬ ctx.Preempts st k (served n) := by
    rintro ⟨-, hboard, -⟩
    rw [isSpecial, State.backStreet?_eq_none_of_arrivedVia hboard (by decide)] at hspecial
    cases hspecial
  obtain ⟨-, -, -, -, -, -, -, hclose, -⟩ := compares_of_prunes hmix hk hpreempts
  refine ⟨k, ⟨m, hn.trans hm, .inr hborn⟩, (later_of_prunes hk).2.2, fun j hj => ?_⟩
  obtain ⟨m', hm', hborn'⟩ := H.late_of_prunes ⟨m, le_rfl, .inr hborn⟩ hj
  have hcost : ctx.request.dominance.noWorse (st k) (st j) = true := by
    have hclose := hclose hrule
    have hj' := hlater (hm.trans hm') hborn' ((later_of_prunes hj).2.1.trans hv)
    rw [hrule, DominanceRule.noWorse_iff] at hclose ⊢
    exact ⟨hclose.1.trans (add_le_add_left hj'.1 _), hclose.2.trans (add_le_add_left hj'.2 _)⟩
  rw [(special_of_prunes hmix hj hcost).1] at hordinary
  cases hordinary

/-! ## Priorities that come to a halt -/

theorem add_boardCost_le (H : ctx.Chronicle st served) (hcosts : ctx.NeverLowers) {n : Nat}
    (hp : (st i).parent = some (served n)) (hboard : (st i).arrivedVia .board = true) :
    (st (served n)).elapsed ≤ (st i).elapsed ∧
      (st (served n)).weight + Move.boardCost ≤ (st i).weight := by
  have helapsed := (H.costs_le_of_parent hcosts hp).1
  obtain ⟨e, h⟩ := H.exists_follows hp
  obtain ⟨wait, htime, hweight⟩ := h.costs_of_board hboard
  change (st (served n)).elapsed ≤ (st i).elapsed at helapsed
  rw [htime] at helapsed
  rw [htime, hweight]
  exact ⟨helapsed, by linarith⟩

/-- A boarding weighs more than what it follows, so only few are served once the priorities have
come to a halt. -/
theorem exists_not_board_of_halt (H : ctx.Chronicle st served) (hcosts : ctx.NeverLowers)
    (heven : ctx.EstimatesEvenly)
    (hhalt : ∀ n ≥ t, (st (served n)).weight + ctx.remainingWeight (st (served n)).vertex =
      (st (served t)).weight + ctx.remainingWeight (st (served t)).vertex) :
    ∃ t' ≥ t, ∀ n ≥ t', (st (served n)).arrivedVia .board = false := by
  have hboards : {n | t ≤ n ∧ (st (served n)).arrivedVia .board = true}.Finite := by
    refine ((H.finite_born_before t).preimage H.once.injOn).subset ?_
    rintro n ⟨hn, hboard⟩
    have hpos : 0 < served n := by
      refine Nat.pos_of_ne_zero fun hzero => ?_
      rw [hzero, H.origin] at hboard
      simp [State.initial, State.arrivedVia] at hboard
    obtain ⟨m, hm⟩ := H.born hpos
    refine ⟨m, ?_, hm⟩
    by_contra! hlate
    obtain ⟨e, h⟩ := H.exists_follows hm
    have hlevel := heven.remainingWeight_eq h (.inr hboard)
    have hweight := (H.add_boardCost_le hcosts hm hboard).2
    have hsame := (hhalt m hlate).trans (hhalt n hn).symm
    rw [hlevel, add_left_inj] at hsame
    rw [hsame, boardCost_eq] at hweight
    linarith
  obtain ⟨b, hb⟩ := hboards.bddAbove
  refine ⟨max t (b + 1), Nat.le_max_left _ _, fun n hn => Bool.eq_false_iff.2 fun hboard => ?_⟩
  have hle := hb ⟨(Nat.le_max_left t (b + 1)).trans hn, hboard⟩
  omega

/-- Timed transfers alone supply no state without end. -/
theorem infinite_plain (H : ctx.Chronicle st served)
    (hacyclic : ∀ v, ¬ Relation.TransGen ctx.Exempt v v) :
    {i | (st i).arrivedVia .timedTransfer = false}.Infinite := by
  intro hplain
  refine H.not_forall_arrivals_finite fun v => ?_
  induction v using (wellFounded_exempt hacyclic).induction with
  | _ v ih =>
    refine (hplain.union (H.exemptArrivals_finite ih)).subset fun i hi => ?_
    cases htimed : (st i).arrivedVia .timedTransfer with
    | false => exact .inl htimed
    | true => exact .inr ⟨hi, .inl htimed⟩

/-- Where no boarding is served, a cheapest one lasts of what comes from then on. -/
theorem exists_lasts_of_not_board (H : ctx.Chronicle st served)
    (hrule : ctx.request.dominance = .pareto) (hcosts : ctx.NeverLowers) (hmix : ctx.Unmixed)
    (hplain : {i | (st i).arrivedVia .timedTransfer = false}.Infinite)
    (hserved : ∀ n ≥ t, (st (served n)).arrivedVia .board = false) :
    ∃ i, Late st served t i ∧ History.Lasts ctx st i := by
  let late : Set Nat := {i | Late st served t i ∧ (st i).arrivedVia .timedTransfer = false}
  have hlate : late.Nonempty := by
    obtain ⟨i, hi, hnot⟩ := (hplain.sdiff ((H.finite_born_before t).insert 0)).nonempty
    obtain ⟨hpos, hnot⟩ := not_or.1 hnot
    obtain ⟨m, hm⟩ := H.born (Nat.pos_of_ne_zero hpos)
    refine ⟨i, ⟨m, ?_, .inr hm⟩, hi⟩
    by_contra! hlt
    exact hnot ⟨m, hlt, hm⟩
  have hprice : Monotone (DominanceRule.pareto.price : R × R × R → R) := DominanceRule.price_mono
  obtain ⟨x, hx, hcheapest⟩ := H.exists_least hcosts hprice hlate
  let near : Set Nat :=
    {i ∈ late | ctx.ceiling (st i) < (st x).elapsed + (st x).weight + Move.boardCost}
  -- A boarding after anything but a timed transfer would follow something cheaper.
  have hboards : ∀ i ∈ near, (st i).arrivedVia .board = true → ctx.Preferred st i := by
    rintro i ⟨⟨⟨n, hn, rfl | hp⟩, -⟩, hnear⟩ hboard
    · rw [hserved n hn] at hboard
      cases hboard
    · refine ⟨hrule, hboard, _, hp, ?_⟩
      by_contra htimed
      obtain ⟨helapsed, hweight⟩ := H.add_boardCost_le hcosts hp hboard
      have hcheap := hcheapest _ ⟨⟨n, hn, .inl rfl⟩, Bool.not_eq_true _ ▸ htimed⟩
      change (st x).elapsed + (st x).weight ≤
        (st (served n)).elapsed + (st (served n)).weight at hcheap
      have hceiling := ctx.le_ceiling (s := st i)
      linarith
  have hnear : near.Nonempty := by
    refine ⟨x, hx, ?_⟩
    have hceiling := ctx.ceiling_le (s := st x)
    linarith [two_mul_paretoSlack_lt (R := R)]
  obtain ⟨i, hi, hleast⟩ := (H.ranks_isPWO hcosts _).exists_minimalFor _ _ hnear
  refine ⟨i, hi.1.1, hi.1.2, fun k hk => ?_⟩
  have hpreempts : ¬ ctx.Preempts st k i := fun h => h.2.2 (hboards i hi h.2.1)
  obtain ⟨n, hn, hp⟩ := H.late_of_prunes hi.1.1 hk
  have hk' : k ∈ near := by
    refine ⟨⟨⟨n, hn, .inr hp⟩, (later_of_prunes hk).2.2⟩, ?_⟩
    exact (ceiling_le_of_prunes hrule hmix hk hpreempts).trans_lt hi.2
  have hrank := rank_lt_of_prunes hmix hk hpreempts
  exact absurd (hleast hk' hrank.le) hrank.not_ge

/-- There is no endless run by an even estimate, even if boardings are preferred at any price. -/
theorem false_of_estimatesEvenly (H : ctx.Chronicle st served)
    (hrule : ctx.request.dominance = .pareto) (heven : ctx.EstimatesEvenly)
    (hcosts : ctx.NeverLowers) (hmix : ctx.Unmixed)
    (hacyclic : ∀ v, ¬ Relation.TransGen ctx.Exempt v v) : False := by
  have hmono := H.inTurn heven.rises
  let priority (n : Nat) : R := (st (served n)).weight + ctx.remainingWeight (st (served n)).vertex
  refine H.not_forall_exists_lasts hcosts fun t => ?_
  by_cases hhalt : ∃ t', ∀ n ≥ t', priority n = priority t'
  · obtain ⟨t', hhalt⟩ := hhalt
    obtain ⟨t'', -, hboards⟩ := H.exists_not_board_of_halt hcosts heven hhalt
    obtain ⟨i, hlate, hlasts⟩ := H.exists_lasts_of_not_board hrule hcosts hmix
      (H.infinite_plain hacyclic)
      fun n (hn : n ≥ max t t'') => hboards n ((Nat.le_max_right t t'').trans hn)
    exact ⟨i, hlate.of_le (Nat.le_max_left t t''), hlasts⟩
  · classical
    have hrises : ∃ n, priority t < priority n := by
      push Not at hhalt
      obtain ⟨n, hn, hne⟩ := hhalt t
      exact ⟨n, lt_of_le_of_ne (hmono hn) hne.symm⟩
    have hrise : ∀ n < Nat.find hrises, priority n < priority (Nat.find hrises) := fun n hn =>
      (not_lt.1 (Nat.find_min hrises hn)).trans_lt (Nat.find_spec hrises)
    have hlt : t < Nat.find hrises := hmono.reflect_lt (Nat.find_spec hrises)
    obtain ⟨i, hlate, hlasts⟩ := H.exists_lasts_of_rise hrule hcosts hmix heven hrise
    exact ⟨i, hlate.of_le hlt.le, hlasts⟩

end Context.Chronicle

end TripPlanner
