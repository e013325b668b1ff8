import TripPlanner.Proofs.Coverage
import TripPlanner.Proofs.Estimate
import TripPlanner.Proofs.Optimality
import TripPlanner.Proofs.Replacement
import TripPlanner.Proofs.Termination

/-!
# Guidance

The estimate that guides a search decides in which order states are served, and so which ones are
dropped. It does not change the best weight, if it is consistent and no edge tells states apart that
tie (`Graph.agreeOnBest_of_heuristics`).

Two runs are compared. Whatever one of them has gone on from, no state that counts in the other one
outdoes at less weight (`Search.Reached.sparesServed`), for such a state would have been served
before in the first run as well. So before the other run serves anything dearer, it holds a state of
the same weight in its place (`Search.Reached.waitsWithin_or_replaced`).
-/

namespace TripPlanner

namespace Context

variable {R : Type} [Field R] [LinearOrder R] [IsStrictOrderedRing R] [FloorRing R] [Geodesy R]
  {ctx : Context R}

/-- The search goes by weight and by a consistent estimate, no boarding is preferred at any price,
and ties agree. -/
structure GoesByEstimate (ctx : Context R) : Prop where
  estimate : ctx.EstimatesConsistently
  rule : ctx.request.dominance = .minimumWeight
  changes : ¬ ctx.graph.BoardsAfterChange
  ties : ctx.TiesAgree

theorem GoesByEstimate.justifies (H : ctx.GoesByEstimate) : ctx.Justifies ctx.Replaces where
  refl _ := .alike (.refl _)
  trans ha hb h := h.trans H.rule ha hb
  of_dominates hgrown ha _ hv h := .outdoes (.of_dominates hgrown ha H.changes hv h)

end Context

/-! ## What was served -/

namespace Search

section
variable {R : Type} [Quantity R] [Geodesy R] {ctx : Context R} {search next rest : Search R}
  {a b s : State R} {i j id p : StateId} {found : List StateId}

omit [Quantity R] [Geodesy R] in
/-- The state is stored and listed at its vertex. -/
def Counts (search : Search R) (s : State R) : Prop :=
  ∃ i ∈ search.tree.at? s.vertex, search.store.get? i = some s

theorem Reached.counts (H : search.Reached ctx) (hs : search.store.get? i = some s)
    (hcounts : search.tree.isPruned i = false) : search.Counts s := by
  obtain ⟨offered, hmoment⟩ := H.moment
  exact ⟨i, hmoment.tree_offered.labelled.listed hs hcounts, hs⟩

omit [Quantity R] [Geodesy R] in
/-- What was stored and found in a search is so later. -/
structure GoesOnTo (search next : Search R) : Prop where
  stored : ∀ {i a}, search.store.get? i = some a → next.store.get? i = some a
  found : search.found <+: next.found

omit [Quantity R] [Geodesy R] in
theorem GoesOnTo.trans {last : Search R} (H : search.GoesOnTo next) (H' : next.GoesOnTo last) :
    search.GoesOnTo last :=
  ⟨fun h => H'.stored (H.stored h), H.found.trans H'.found⟩

omit [Quantity R] [Geodesy R] in
theorem GoesOnTo.found_eq_nil (H : search.GoesOnTo next) (hnone : next.found = []) :
    search.found = [] :=
  List.prefix_nil.1 (hnone ▸ H.found)

theorem goesOnTo_settle (hnext : search.next? = some (id, rest)) :
    search.GoesOnTo (rest.settle ctx id) := by
  obtain ⟨hstore, -, hfound⟩ := next?_rest hnext
  refine ⟨fun h => get?_settle_of_get? (hstore ▸ h), hfound ▸ ?_⟩
  cases hs : rest.store.get? id with
  | none => simp [settle, hs]
  | some s =>
    rw [settle_eq hs]
    split
    · exact List.prefix_append _ _
    · rw [expand_found]
      exact List.prefix_refl _

/-- A run has come to where it takes the state off the queue. -/
structure Serves (ctx : Context R) (search : Search R) (id : StateId) (s : State R) : Prop where
  reached : search.Reached ctx
  next : ∃ rest, search.next? = some (id, rest)
  stored : search.store.get? id = some s

theorem Reached.exists_serves (H : search.Reached ctx) (hnext : search.next? = some (id, rest)) :
    ∃ s, search.Serves ctx id s := by
  obtain ⟨-, -, s, hs⟩ := H.consistent.next? hnext
  exact ⟨s, H, ⟨rest, hnext⟩, (next?_rest hnext).1 ▸ hs⟩

theorem Serves.counts (H : search.Serves ctx id s) : search.Counts s := by
  obtain ⟨rest, hnext⟩ := H.next
  obtain ⟨_, w, _, -, -, hcounts, rfl, -⟩ := next?_eq_some_iff.1 hnext
  exact H.reached.counts H.stored hcounts

/-- What has been followed was served before what followed it was stored. -/
theorem Reached.serves_parent (H : search.Reached ctx) (hb : search.store.get? j = some b)
    (hp : b.parent = some p) (ha : search.store.get? p = some a) : ∃ earlier : Search R,
      earlier.Serves ctx p a ∧ earlier.GoesOnTo search ∧ earlier.store.size ≤ j := by
  induction H with
  | start =>
    rw [(get?_start_iff.1 hb).2] at hp
    cases hp
  | @advance search next hreached h ih =>
    obtain ⟨-, id, rest, hnext, rfl⟩ := advance?_eq_some_iff.1 h
    have hgoes : search.GoesOnTo (rest.settle ctx id) := goesOnTo_settle hnext
    rcases Nat.lt_or_ge j search.store.size with hj | hj
    · obtain ⟨b', hb'⟩ := StateStore.get?_isSome_of_lt hj
      cases (hgoes.stored hb').symm.trans hb
      obtain ⟨-, a', _, ha', -⟩ := hreached.consistent.grown.of_parent hb' hp
      cases (hgoes.stored ha').symm.trans ha
      obtain ⟨earlier, hserves, hgoes', hsize⟩ := ih hb' ha'
      exact ⟨earlier, hserves, hgoes'.trans hgoes, hsize⟩
    · -- The state is new, so that its parent is served now.
      rcases get?_settle_cases hb with hold | hnew
      · rw [(next?_rest hnext).1] at hold
        exact absurd (StateStore.lt_size_of_get? hold) (Nat.not_lt.2 hj)
      · cases hnew.symm.trans hp
        obtain ⟨a', hserves⟩ := hreached.exists_serves hnext
        cases (hgoes.stored hserves.stored).symm.trans ha
        exact ⟨search, hserves, hgoes, hj⟩

/-- What is found first was served while nothing was found. -/
theorem Reached.serves_first (H : search.Reached ctx) (hi : search.found = i :: found)
    (hs : search.store.get? i = some s) :
    ∃ earlier : Search R, earlier.Serves ctx i s ∧ earlier.found = [] := by
  induction H generalizing found with
  | start =>
    rw [start_found] at hi
    cases hi
  | @advance search next hreached h ih =>
    obtain ⟨-, id, rest, hnext, rfl⟩ := advance?_eq_some_iff.1 h
    have hgoes : search.GoesOnTo (rest.settle ctx id) := goesOnTo_settle hnext
    cases hnone : search.found with
    | nil =>
      obtain ⟨t, hserves⟩ := hreached.exists_serves hnext
      obtain ⟨hstore, -, hfound⟩ := next?_rest hnext
      have hid : id = i := by
        rw [settle_eq (hstore ▸ hserves.stored)] at hi
        split at hi
        · simp only [hfound, hnone, List.nil_append, List.cons.injEq] at hi
          exact hi.1
        · rw [expand_found, note, hfound, hnone] at hi
          cases hi
      subst hid
      cases (hgoes.stored hserves.stored).symm.trans hs
      exact ⟨search, hserves, hnone⟩
    | cons j before =>
      have hfirst := hgoes.found
      rw [hnone, hi, List.cons_prefix_cons] at hfirst
      obtain ⟨rfl, -⟩ := hfirst
      obtain ⟨t, ht, -⟩ := hreached.consistent.found j (hnone ▸ List.mem_cons_self)
      cases (hgoes.stored ht).symm.trans hs
      exact ih hnone ht

end

/-! ## One run -/

/-- A state waits that is served no later than the bound. -/
def WaitsWithin {R : Type} [LinearOrder R] (search : Search R) (bound : R) : Prop :=
  ∃ w ∈ search.queue.waiting, search.tree.isPruned w.id = false ∧ w.priority ≤ bound

theorem WaitsWithin.mono {R : Type} [LinearOrder R] {search : Search R} {bound bound' : R}
    (H : search.WaitsWithin bound) (hle : bound ≤ bound') : search.WaitsWithin bound' := by
  obtain ⟨w, hw, hcounts, hpriority⟩ := H
  exact ⟨w, hw, hcounts, hpriority.trans hle⟩

section
variable {R : Type} [Field R] [LinearOrder R] [IsStrictOrderedRing R] [FloorRing R] [Geodesy R]
  {ctx : Context R} {search rest : Search R} {store : StateStore R} {a b s x z : State R}
  {i id : StateId} {bound : R}

/-- No state that counts outdoes the given one at less weight. -/
def Spares (search : Search R) (ctx : Context R) (s : State R) : Prop :=
  ∀ x, search.Counts x → ctx.Outdoes x s → s.weight ≤ x.weight

/-- All states are spared from which the store goes on. -/
def SparesServed (search : Search R) (ctx : Context R) (store : StateStore R) : Prop :=
  ∀ j p a b, store.get? j = some b → b.parent = some p → store.get? p = some a →
    search.Spares ctx a

/-- Of the states that count none outdoes another one. -/
theorem Reached.eq_of_outdoes (H : search.Reached ctx) (ha : search.Counts a)
    (hb : search.Counts b) (h : ctx.Outdoes a b) : a = b := by
  obtain ⟨offered, hmoment⟩ := H.moment
  obtain ⟨i, hi, hi'⟩ := ha
  obtain ⟨j, hj, hj'⟩ := hb
  by_contra hne
  have hij : i ≠ j := by
    rintro rfl
    exact hne (Option.some.inj (hi'.symm.trans hj'))
  have hdom := hmoment.tree_offered.labelled.antichain hi (h.vertex ▸ hj) hij hi' hj'
  rw [h.dominates] at hdom
  cases hdom

theorem HeldBy.exists_counts {rel : State R → State R → Prop} (H : search.HeldBy rel s)
    (hreached : search.Reached ctx) : ∃ x, search.Counts x ∧ rel x s := by
  obtain ⟨i, hi, x, hx, hrel⟩ := H
  exact ⟨x, ⟨i, (hreached.consistent.kept.vertex_eq hi hx).symm ▸ hi, hx⟩, hrel⟩

theorem Counts.reachable (H : search.Counts s) (hreached : search.Reached ctx) :
    ctx.Reachable s := by
  obtain ⟨i, -, hs⟩ := H
  exact hreached.consistent.grown.reachable hs

/-- Before anything is found, a state that counts waits or has been gone on from. -/
theorem Reached.waitsWithin_or_closed (H : search.Reached ctx) (hctx : ctx.GoesByEstimate)
    (hnone : search.found = []) (hs : search.Counts s) :
    search.WaitsWithin (s.weight + ctx.remainingWeight s.vertex) ∨
      ∃ i, search.Closed ctx ctx.Replaces i s := by
  obtain ⟨i, hi, hs⟩ := hs
  rcases H.settled hctx.justifies hi hs with h | h | h
  · obtain ⟨w, hw, rfl⟩ := List.mem_map.1 h
    obtain ⟨t, ht, hpriority⟩ := H.served.priced w hw
    cases hs.symm.trans ht
    exact .inl ⟨w, hw, H.consistent.kept.counts hi, hpriority.le⟩
  · rw [hnone] at h
    exact absurd h List.not_mem_nil
  · exact .inr ⟨i, h⟩

theorem Serves.le (H : search.Serves ctx id s) (h : search.WaitsWithin bound) :
    s.weight + ctx.remainingWeight s.vertex ≤ bound := by
  obtain ⟨rest, hnext⟩ := H.next
  obtain ⟨w, hw, hcounts, hpriority⟩ := h
  exact (H.reached.served.priority_le hnext H.stored hw hcounts).trans hpriority

theorem Spares.weight_eq (H : search.Spares ctx s)
    (hrule : ctx.request.dominance = .minimumWeight) (hx : search.Counts x)
    (h : ctx.Replaces x s) : x.weight = s.weight := by
  cases h with
  | alike h => exact h.weight
  | outdoes h => exact le_antisymm (h.weight_le hrule) (H x hx h)

/-- Of a state of another store that is spared with all from which it comes: something is served
before it, or a state that counts replaces it at the same weight. -/
theorem Reached.waitsWithin_or_replaced (H : search.Reached ctx) (hctx : ctx.GoesByEstimate)
    (hnone : search.found = []) (hgrown : ctx.Grown store)
    (hserved : search.SparesServed ctx store) (hz : store.get? id = some z)
    (hspared : search.Spares ctx z) :
    search.WaitsWithin (z.weight + ctx.remainingWeight z.vertex) ∨
      ∃ y, search.Counts y ∧ ctx.Replaces y z ∧ y.weight = z.weight := by
  induction id using Nat.strong_induction_on generalizing z with
  | _ id ih =>
    rcases Nat.eq_zero_or_pos id with rfl | hid
    · cases hgrown.origin.symm.trans hz
      obtain ⟨y, hy, hrel⟩ := (H.heldBy_origin hctx.justifies).exists_counts H
      exact .inr ⟨y, hy, hrel, hspared.weight_eq hctx.rule hy hrel⟩
    · obtain ⟨p, a, e, hlt, ha, -, hstep⟩ := hgrown.parent hz hid
      have hreachable := hgrown.reachable ha
      have hfollows := Context.Follows.of_mem_successors hstep
      have hestimate := hctx.estimate.step hreachable hfollows
      have hle : a.weight + ctx.remainingWeight a.vertex ≤
          z.weight + ctx.remainingWeight z.vertex := by linarith
      have hspared' := hserved id p a z hz (Context.parent_of_mem_successors hstep) ha
      rcases ih p hlt ha hspared' with hwaits | ⟨y, hy, hrel, hweight⟩
      · exact .inl (hwaits.mono hle)
      rcases H.waitsWithin_or_closed hctx hnone hy with hwaits | ⟨i, -, hclosed⟩
      · rw [hweight, hrel.covers.vertex] at hwaits
        exact .inl (hwaits.mono hle)
      · -- The edge that leads to the state leads from what replaces its predecessor to its like.
        have hy' := hy.reachable H
        obtain ⟨y', hmem, halike⟩ :=
          hrel.follows hctx.ties hy' hreachable hweight hfollows i
        obtain ⟨x, hx, hrel'⟩ := (hclosed _ hmem).exists_counts H
        have hreplaces := hrel'.trans hctx.rule (hx.reachable H)
          (hy'.step (.of_mem_successors hmem)) (.alike halike)
        exact .inr ⟨x, hx, hreplaces, hspared.weight_eq hctx.rule hx hreplaces⟩

end

end Search

/-! ## Two runs -/

namespace Context

section
variable {R : Type} [Quantity R] {ctx : Context R} {request : Request R} {g : Graph R}
  {h h' : Heuristic}

/-- The request with another estimate. -/
def guided (ctx : Context R) (h : Heuristic) : Context R :=
  { ctx with request := { ctx.request with heuristic := h } }

theorem of_guided (hctx : Context.of request g = .ok ctx) :
    Context.of { request with heuristic := h } g = .ok (ctx.guided h) := by
  obtain ⟨hvalid, start, goal, hstart, hgoal, origin, target, horigin, htarget, rfl⟩ :=
    of_eq_ok_iff.1 hctx
  refine of_eq_ok_iff.2 ⟨hvalid, start, goal, hstart, hgoal, origin, target, horigin, htarget, ?_⟩
  unfold placed prepare guided
  dsimp only
  split <;> rfl

theorem Grown.guided {store : StateStore R} (H : (ctx.guided h).Grown store) :
    (ctx.guided h').Grown store := ⟨H.origin, H.parent⟩

end

variable {R : Type} [Field R] [LinearOrder R] [IsStrictOrderedRing R] [FloorRing R] [Geodesy R]
  {ctx : Context R} {a b : State R} {h h' : Heuristic}

theorem Outdoes.guided (H : (ctx.guided h).Outdoes a b) : (ctx.guided h').Outdoes a b :=
  ⟨H.vertex, H.side, H.plane, H.future, H.cost⟩

theorem TiesAgree.guided (H : ctx.TiesAgree) : (ctx.guided h).TiesAgree :=
  fun ha hb houtdoes hweight hfollows hfollows' =>
    H (ha.congr rfl fun h => h) (hb.congr rfl fun h => h) ⟨houtdoes.vertex, houtdoes.side,
      houtdoes.plane, houtdoes.future, houtdoes.cost⟩ hweight hfollows hfollows'

/-- Whatever estimate guides it, the search goes by weight and a consistent estimate. -/
def GoesByEstimates (ctx : Context R) : Prop := ∀ h, (ctx.guided h).GoesByEstimate

end Context

namespace Search

variable {R : Type} [Field R] [LinearOrder R] [IsStrictOrderedRing R] [FloorRing R] [Geodesy R]
  {ctx : Context R} {search other : Search R} {s t : State R} {i j : StateId} {h h' : Heuristic}

/-- Before anything is found, no state that counts in one run outdoes at less weight what another
run has gone on from. -/
theorem Reached.sparesServed (H : search.Reached (ctx.guided h))
    (H' : other.Reached (ctx.guided h')) (hctx : ctx.GoesByEstimates) (hnone : search.found = [])
    (hnone' : other.found = []) : search.SparesServed (ctx.guided h) other.store := by
  -- The induction is on how far both runs have come, and the two take turns.
  induction hn : search.store.size + other.store.size using Nat.strong_induction_on
    generalizing h h' search other with
  | _ n ih =>
    intro j p a b hb hp ha x hx houtdoes
    by_contra hlt
    rw [not_le] at hlt
    obtain ⟨earlier, hserves, hgoes, hsize⟩ := H'.serves_parent hb hp ha
    have hrule := (hctx h').rule
    have hnone'' := hgoes.found_eq_nil hnone'
    have houtdoes' : (ctx.guided h').Outdoes x a := houtdoes.guided
    have hgrown : (ctx.guided h').Grown search.store := H.consistent.grown.guided
    obtain ⟨i, -, hxi⟩ := hx
    have hx' := hgrown.reachable hxi
    -- What outdoes the cheaper state outdoes the one that is served, which counts.
    have honly : ∀ y, earlier.Counts y → (ctx.guided h').Replaces y x → y = a := fun y hy hrel =>
      hserves.reached.eq_of_outdoes hy hserves.counts
        (hrel.trans_outdoes hrule (hy.reachable hserves.reached) hx' houtdoes')
    have hspared : earlier.Spares (ctx.guided h') x := fun y hy hyx => by
      cases honly y hy (.outdoes hyx)
      exact absurd (hyx.weight_le hrule) (not_le.2 hlt)
    have hlater : earlier.store.size < other.store.size :=
      Nat.lt_of_le_of_lt hsize (StateStore.lt_size_of_get? hb)
    have hserved := ih _ (by omega) hserves.reached H hnone'' hnone rfl
    rcases hserves.reached.waitsWithin_or_replaced (hctx h') hnone'' hgrown hserved hxi hspared with
      hwaits | ⟨y, hy, hrel, hweight⟩
    · have hle := hserves.le hwaits
      rw [houtdoes.vertex, add_le_add_iff_right] at hle
      exact absurd hle (not_le.2 hlt)
    · cases honly y hy hrel
      exact absurd hweight hlt.ne'

/-- What is found first in one run weighs no more than what is found first in another one. -/
theorem Serves.weight_le (H : search.Serves (ctx.guided h) i s)
    (H' : other.Serves (ctx.guided h') j t) (hctx : ctx.GoesByEstimates)
    (hnone : search.found = []) (hnone' : other.found = []) (hs : ctx.isFinal s = true)
    (ht : ctx.isFinal t = true) : s.weight ≤ t.weight := by
  have hvertex : ∀ {x}, ctx.isFinal x = true → s.vertex = x.vertex := by
    intro x hx
    simp only [Context.isFinal, Bool.and_eq_true, decide_eq_true_eq] at hs hx
    exact hs.1.1.1.trans hx.1.1.1.symm
  have hbound : ∀ {x}, ctx.isFinal x = true →
      search.WaitsWithin (x.weight + (ctx.guided h).remainingWeight x.vertex) →
        s.weight ≤ x.weight := by
    intro x hx hwaits
    have hle := H.le hwaits
    rwa [hvertex hx, add_le_add_iff_right] at hle
  -- A state that has arrived and counts still waits.
  have hleast : ∀ x, search.Counts x → ctx.isFinal x = true → s.weight ≤ x.weight := by
    intro x hx hfinal
    rcases H.reached.waitsWithin_or_closed (hctx h) hnone hx with hwaits | ⟨i, hopen, -⟩
    · exact hbound hfinal hwaits
    · change ctx.isFinal x = false at hopen
      rw [hopen] at hfinal
      cases hfinal
  have harrived : ∀ x, (ctx.guided h).Replaces x t → ctx.isFinal x = true := fun x hrel =>
    (hrel.covers.isFinal : ctx.isFinal x = ctx.isFinal t).trans ht
  by_cases hspared : search.Spares (ctx.guided h) t
  · have hserved := H.reached.sparesServed H'.reached hctx hnone hnone'
    have hgrown : (ctx.guided h).Grown other.store := H'.reached.consistent.grown.guided
    rcases H.reached.waitsWithin_or_replaced (hctx h) hnone hgrown hserved H'.stored hspared with
      hwaits | ⟨y, hy, hrel, hweight⟩
    · exact hbound ht hwaits
    · exact hweight ▸ hleast y hy (harrived y hrel)
  · simp only [Spares, not_forall, not_le] at hspared
    obtain ⟨x, hx, houtdoes, hlt⟩ := hspared
    exact (hleast x hx (harrived x (.outdoes houtdoes))).trans hlt.le

/-- The first states that two runs find weigh the same. -/
theorem Reached.first_weight_eq {found found' : List StateId} (H : search.Reached (ctx.guided h))
    (H' : other.Reached (ctx.guided h')) (hctx : ctx.GoesByEstimates)
    (hi : search.found = i :: found) (hj : other.found = j :: found')
    (hs : search.store.get? i = some s) (ht : other.store.get? j = some t) :
    s.weight = t.weight := by
  obtain ⟨s', hs', hfinal⟩ := H.consistent.found i (hi ▸ List.mem_cons_self)
  obtain ⟨t', ht', hfinal'⟩ := H'.consistent.found j (hj ▸ List.mem_cons_self)
  cases hs.symm.trans hs'
  cases ht.symm.trans ht'
  obtain ⟨earlier, hserves, hnone⟩ := H.serves_first hi hs
  obtain ⟨earlier', hserves', hnone'⟩ := H'.serves_first hj ht
  exact le_antisymm (hserves.weight_le hserves' hctx hnone hnone' hfinal hfinal')
    (hserves'.weight_le hserves hctx hnone' hnone hfinal' hfinal)

end Search

/-! ## Answers -/

/-- Both answers are that there is no path, or the first paths of both weigh the same. -/
def AgreeOnBest {R : Type} [Quantity R]
    (answer answer' : Except (Error R) (List (Itinerary R))) : Prop :=
  answer = .error .pathNotFound ∧ answer' = .error .pathNotFound ∨
    ∃ first rest first' rest', answer = .ok (first :: rest) ∧ answer' = .ok (first' :: rest') ∧
      first.weight = first'.weight

namespace Context

variable {R : Type} [Field R] [LinearOrder R] [IsStrictOrderedRing R] [FloorRing R] [Geodesy R]
  {ctx : Context R} {h h' : Heuristic}

/-- The answer to a request is that there is no path, or starts with the first state found. -/
theorem findPaths_cases (ctx : Context R) :
    ctx.search.1.found = [] ∧ ctx.findPaths = .error .pathNotFound ∨
      ∃ i found s first rest, ctx.search.1.found = i :: found ∧ ctx.search.1.store.get? i = some s ∧
        ctx.isFinal s = true ∧ ctx.findPaths = .ok (first :: rest) ∧ first.weight = s.weight := by
  have hcons := ctx.search_reached.consistent
  cases hfound : ctx.search.1.found with
  | nil => exact .inl ⟨rfl, findPaths_eq_pathNotFound_iff.2 hfound⟩
  | cons i found =>
    obtain ⟨s, hs, hfinal⟩ := hcons.found i (hfound ▸ List.mem_cons_self)
    have hpaths : ctx.search.1.itineraries ctx = ctx.itineraryTo ctx.search.1.store i ::
        found.map (ctx.itineraryTo ctx.search.1.store) := by
      rw [Search.itineraries, hfound, List.map_cons]
    exact .inr ⟨i, found, s, _, _, rfl, hs, hfinal,
      findPaths_eq_ok_iff.2 ⟨by simp [hfound], hpaths⟩, hcons.grown.itineraryTo_weight hs⟩

/-- A search that ends has found something if another one has. -/
theorem found_ne_nil_of_guided (hctx : ctx.GoesByEstimates)
    (hcount : ctx.request.numItineraries ≠ 0) (hend : (ctx.guided h).search.2 ≠ .outOfSteps)
    (hfound : (ctx.guided h').search.1.found ≠ []) : (ctx.guided h).search.1.found ≠ [] := by
  obtain ⟨i, found, hi⟩ := List.exists_cons_of_ne_nil hfound
  have hcons := (ctx.guided h').search_reached.consistent
  obtain ⟨s, hs, hfinal⟩ := hcons.found i (hi ▸ List.mem_cons_self)
  have hgrown : (ctx.guided h).Grown (ctx.guided h').search.1.store := hcons.grown.guided
  obtain ⟨es, hchain⟩ := (hgrown.reachable hs).exists_chain
  exact found_ne_nil_of_run hcount (fun hchange => absurd hchange (hctx h).changes) hend hchain
    hfinal

theorem GoesByEstimates.findPaths_agree (hctx : ctx.GoesByEstimates)
    (hcount : ctx.request.numItineraries ≠ 0) (hend : ∀ h, (ctx.guided h).search.2 ≠ .outOfSteps)
    (h h' : Heuristic) : AgreeOnBest (ctx.guided h).findPaths (ctx.guided h').findPaths := by
  have hboth : ∀ {h h'}, (ctx.guided h).search.1.found = [] →
      (ctx.guided h').search.1.found = [] := fun {h h'} hnone => by
    by_contra hfound
    exact found_ne_nil_of_guided hctx hcount (hend h) hfound hnone
  rcases (ctx.guided h).findPaths_cases with
    ⟨hnone, hpaths⟩ | ⟨i, found, s, first, rest, hi, hs, -, hpaths, hweight⟩
  · exact .inl ⟨hpaths, findPaths_eq_pathNotFound_iff.2 (hboth hnone)⟩
  · rcases (ctx.guided h').findPaths_cases with
      ⟨hnone, -⟩ | ⟨j, found', t, first', rest', hj, ht, -, hpaths', hweight'⟩
    · rw [hboth hnone] at hi
      cases hi
    · have heq := (ctx.guided h).search_reached.first_weight_eq (ctx.guided h').search_reached hctx
        hi hj hs ht
      exact .inr ⟨first, rest, first', rest', hpaths, hpaths',
        hweight.trans (heq.trans hweight'.symm)⟩

end Context

/-- The estimate does not change the best weight: two searches that differ in it and end both find
nothing, or find paths of which the first ones weigh the same. No boarding must be preferred at any
price, for no estimate knows of that, and states that tie must do so one edge further. -/
theorem Graph.agreeOnBest_of_heuristics {R : Type} [Field R] [LinearOrder R] [IsStrictOrderedRing R]
    [FloorRing R] [Geodesy R] {g : Graph R} {request : Request R} {ctx : Context R}
    (hctx : Context.of request g = .ok ctx) (hmetric : Geodesy.IsMetric R) (hbuilt : g.Built)
    (hspans : g.Spans)
    (hdirections : ∀ {e f source target}, g.street? e = some source → g.street? f = some target →
      |target.endAngle - source.startAngle| ≤ 360)
    (hrequest : request.IsMeasured) (hwalk : request.walkSpeed ≤ 40) (hbike : request.bikeSpeed ≤ 40)
    (hrule : request.dominance = .minimumWeight) (hchanges : ¬ g.BoardsAfterChange)
    (hties : ctx.TiesAgree) (hend : ∀ h, (ctx.guided h).search.2 ≠ .outOfSteps)
    (h h' : Heuristic) : AgreeOnBest (g.findPaths { request with heuristic := h })
      (g.findPaths { request with heuristic := h' }) := by
  obtain ⟨triangle, hplaced⟩ := Context.request_of hctx
  have hguided : ctx.GoesByEstimates := fun h =>
    { estimate := Context.estimatesConsistently_of (Context.of_guided hctx) hmetric hbuilt hspans
        hdirections ⟨hrequest.walkReluctance, hrequest.time, hrequest.safety, hrequest.slope⟩ hwalk
        hbike
      rule := by
        change ctx.request.dominance = .minimumWeight
        rw [hplaced, hrule]
      changes := by
        change ¬ ctx.graph.BoardsAfterChange
        rwa [Context.graph_of hctx]
      ties := hties.guided }
  have hcount : ctx.request.numItineraries ≠ 0 := by
    rw [hplaced]
    exact (Request.validate_eq_ok_iff.1 (Context.of_eq_ok_iff.1 hctx).1).2.2.2.2.2
  rw [Graph.findPaths_of (Context.of_guided hctx), Graph.findPaths_of (Context.of_guided hctx)]
  exact hguided.findPaths_agree hcount hend h h'

/-! ## A turn on the way to work -/

namespace Elbow

/-- A street that goes straight on at a corner, one that turns off there, and a longer one around
the corner. -/
def graph : Graph ℚ :=
  .build
    [.intersection "home" ⟨0, 0⟩, .intersection "corner" ⟨1000, 0⟩,
      .intersection "work" ⟨1000, 1000⟩, .intersection "shop" ⟨2000, 0⟩]
    [(0, 1, .street ((Street.plain 1 1000 .allStreet).withAngles 90 90)),
      (1, 2, .street (.plain 2 1000 .allStreet)),
      (1, 3, .street ((Street.plain 1 1000 .allStreet).withAngles 90 90)),
      (0, 2, .street (.plain 3 2500 .allStreet))]

/-- A walk to work. -/
def request : Request ℚ :=
  { Request.default with
    origin := some ⟨0, 0⟩
    destination := some ⟨1000, 1000⟩
    modes := .ofList [.walk]
    dominance := .minimumWeight }

/-- The walk placed on the network. -/
def walk : Context ℚ := .placed request graph 0 2 ⟨0, 0⟩ ⟨1000, 1000⟩

theorem of_request : Context.of request graph = .ok walk :=
  Context.of_placed (by decide +kernel) rfl rfl (by decide +kernel) (by decide +kernel) (by decide)

theorem tiesAgree_walk : walk.TiesAgree :=
  Context.Encloses.tiesAgree (walk.within 3) (by decide +kernel) (by decide +kernel)

/-- Whatever the estimate, the way over the corner is found first. -/
theorem agreeOnBest_over_corner : (walk.guided .euclidean).remainingWeight 0 ≠ 0 ∧
    AgreeOnBest (graph.findPaths { request with heuristic := .trivial })
      (graph.findPaths { request with heuristic := .euclidean }) := by
  have hmeasured : graph.IsMeasured := by decide +kernel
  have huntimed : graph.IsUntimed := by decide
  refine ⟨by decide +kernel, Graph.agreeOnBest_of_heuristics of_request Geodesy.isMetric_rat
    (Graph.built_build (by decide)) (by decide +kernel) hmeasured.directions
    (by decide +kernel) (by decide +kernel) (by decide) rfl huntimed.not_boardsAfterChange
    tiesAgree_walk (fun h => ?_) .trivial .euclidean⟩
  cases h <;> decide +kernel

end Elbow

end TripPlanner
