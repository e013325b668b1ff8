import Mathlib.Data.Fintype.List
import Mathlib.Data.Set.Card
import TripPlanner.Proofs.Domination
import TripPlanner.Proofs.Endless
import TripPlanner.Proofs.Optimality
import TripPlanner.Proofs.Soundness

/-!
# Lineages

No state of a search has an ancestor at its vertex that came over the same edge in the same
situation. Such an ancestor has cost no more, so it outdoes the state; it was offered to the tree
before, so it is outdone itself by a state that counts, which then rejects the new one
(`Search.Moment.tag_not_mem`). The ancestor may have been pruned long ago.

There are finitely many tags, so finitely many lineages without a repetition, and a state is told by
the tags of its lineage (`Search.Moment.lineage_inj`). This bounds all runs at once, whatever
number of itineraries they look for (`Context.finite_lineages`).
-/

namespace TripPlanner

/-- Which state a state came from and over which edge. -/
def State.key {R : Type} (s : State R) : Option StateId × Option BackEdge := (s.parent, s.back)

/-- The states from the start of the trip up to the given one. -/
def StateStore.lineage {R : Type} (store : StateStore R) (id : StateId) : List (State R) :=
  (store.chainTo id).filterMap store.get?

theorem StateStore.exists_of_mem_lineage {R : Type} {store : StateStore R} {id : StateId}
    {a : State R} (h : a ∈ store.lineage id) : ∃ i, store.get? i = some a := by
  obtain ⟨i, -, hi⟩ := List.mem_filterMap.1 h
  exact ⟨i, hi⟩

/-! ## Lineages of a store -/

namespace Context.Grown

section
variable {R : Type} [Quantity R] {ctx : Context R} {store next : StateStore R} {s : State R}
  {id p : StateId}

theorem lineage_zero (H : ctx.Grown store) : store.lineage 0 = [.initial ctx.origin] := by
  simp [StateStore.lineage, H.chainTo_zero, H.origin]

theorem lineage_of_parent (H : ctx.Grown store) (hs : store.get? id = some s)
    (hp : s.parent = some p) : store.lineage id = store.lineage p ++ [s] := by
  simp [StateStore.lineage, H.chainTo_of_parent hs hp, hs]

/-- A state starts the trip, or its lineage is that of an earlier state and itself. -/
theorem lineage_cases (H : ctx.Grown store) (hs : store.get? id = some s) :
    id = 0 ∧ store.lineage id = [s] ∨ ∃ p a e, p < id ∧ store.get? p = some a ∧
      (e, s) ∈ ctx.successors p a ∧ store.lineage id = store.lineage p ++ [s] := by
  rcases Nat.eq_zero_or_pos id with rfl | hid
  · cases H.origin.symm.trans hs
    exact .inl ⟨rfl, H.lineage_zero⟩
  · obtain ⟨p, a, e, hlt, ha, -, hstep⟩ := H.parent hs hid
    exact .inr ⟨p, a, e, hlt, ha, hstep, H.lineage_of_parent hs (parent_of_mem_successors hstep)⟩

/-- A store that grows keeps its lineages. -/
theorem lineage_eq (H : ctx.Grown store) (H' : ctx.Grown next)
    (hkept : ∀ {i a}, store.get? i = some a → next.get? i = some a) (hs : store.get? id = some s) :
    next.lineage id = store.lineage id := by
  induction id using Nat.strong_induction_on generalizing s with
  | _ id ih =>
    rcases Nat.eq_zero_or_pos id with rfl | hid
    · rw [H.lineage_zero, H'.lineage_zero]
    · obtain ⟨p, a, e, hlt, ha, -, hstep⟩ := H.parent hs hid
      have hp := parent_of_mem_successors hstep
      rw [H.lineage_of_parent hs hp, H'.lineage_of_parent (hkept hs) hp, ih p hlt ha]

theorem lineage_ne_nil (H : ctx.Grown store) (hs : store.get? id = some s) :
    store.lineage id ≠ [] := by
  rcases H.lineage_cases hs with ⟨-, h⟩ | ⟨p, a, e, -, -, -, h⟩ <;> simp [h]

end

variable {R : Type} [Field R] [LinearOrder R] [IsStrictOrderedRing R] [FloorRing R]
  {ctx : Context R} {store : StateStore R} {s a : State R} {id : StateId}

theorem costs_le_of_mem_lineage (H : ctx.Grown store) (hcosts : ctx.NeverLowers)
    (hs : store.get? id = some s) (ha : a ∈ store.lineage id) : a.costs ≤ s.costs := by
  induction id using Nat.strong_induction_on generalizing s with
  | _ id ih =>
    rcases H.lineage_cases hs with ⟨-, h⟩ | ⟨p, b, e, hlt, hb, hstep, h⟩
    · rw [h, List.mem_singleton] at ha
      rw [ha]
    · rw [h, List.mem_append, List.mem_singleton] at ha
      rcases ha with ha | rfl
      · exact (ih p hlt hb ha).trans (hcosts (H.reachable hb) (.of_mem_successors hstep))
      · exact le_rfl

end Context.Grown

/-! ## No repetition -/

/-- States with one tag, of which the first one has cost no more. -/
theorem Context.Outdoes.of_tag {R : Type} [Field R] [LinearOrder R] [IsStrictOrderedRing R]
    [FloorRing R] [Geodesy R] {ctx : Context R} {a b : State R} (htag : a.tag = b.tag)
    (hcosts : a.costs ≤ b.costs) (hplain : a.arrivedVia .timedTransfer = false) :
    ctx.Outdoes a b := by
  obtain ⟨hv, hback, hplane⟩ := State.tag_eq_iff.1 htag
  have hvia := State.arrivedVia_congr hback
  exact ⟨hv, onSameSide_iff.2 ⟨congrArg _ hplane, hvia _, hplain, hvia _ ▸ hplain⟩, hplane,
    Bool.eq_false_iff.2 fun h => (Context.futureDiffers_iff.1 h).1 hback,
    DominanceRule.noWorse_of_le hcosts⟩

namespace Search

section
variable {R : Type} [Field R] [LinearOrder R] [IsStrictOrderedRing R] [FloorRing R] [Geodesy R]
  {ctx : Context R} {search : Search R} {offered : List (State R)}
  {pending : List (EdgeIndex × State R)} {t : State R} {e : EdgeIndex} {p id : StateId}

/-- A state that is not rejected has no ancestor with its tag. -/
theorem Moment.tag_not_mem (H : Moment ctx offered ((e, t) :: pending) search)
    (hplain : ctx.graph.IsUntimed) (hrule : ctx.request.dominance ≠ .pareto)
    (hcosts : ctx.NeverLowers) (hp : t.parent = some p)
    (hkept : search.tree.rejects ctx search.store t = false) :
    t.tag ∉ (search.store.lineage p).map State.tag := by
  intro hmem
  obtain ⟨a, ha, htag⟩ := List.mem_map.1 hmem
  obtain ⟨i, hi⟩ := StateStore.exists_of_mem_lineage ha
  have hgrown := H.consistent.grown
  have hborn := H.born_of_mem_pending List.mem_cons_self
  have hcost : a.costs ≤ t.costs := by
    rcases hborn with rfl | ⟨q, b, e', hb, hstep⟩
    · cases hp
    · cases (Context.parent_of_mem_successors hstep).symm.trans hp
      exact (hgrown.costs_le_of_mem_lineage hcosts hb ha).trans
        (hcosts (hgrown.reachable hb) (.of_mem_successors hstep))
  have hreachable := hgrown.reachable hi
  have houtdoes : ctx.Outdoes a t := .of_tag htag hcost (hreachable.not_timed hplain)
  -- The ancestor may be pruned, but what holds it outdoes the new state too.
  obtain ⟨j, hj, c, hc, hca⟩ :=
    H.heldBy (Context.justifies_outdoes hplain hrule) a (H.mem_offered hi)
  have hct := hca.trans hrule (hgrown.reachable hc) hreachable houtdoes
  have hdom := Tree.not_dominates_of_not_rejects hkept (houtdoes.vertex ▸ hj) hc
  rw [H.consistent.kept.goesBy, hct.dominates] at hdom
  cases hdom

/-- At no moment of a run does a tag occur twice in a lineage. -/
theorem Moment.lineage_nodup (H : Moment ctx offered pending search)
    (hplain : ctx.graph.IsUntimed) (hrule : ctx.request.dominance ≠ .pareto)
    (hcosts : ctx.NeverLowers) {s : State R} (hs : search.store.get? id = some s) :
    ((search.store.lineage id).map State.tag).Nodup := by
  let P (store : StateStore R) : Prop := ctx.Grown store ∧
    ∀ {id s}, store.get? id = some s → ((store.lineage id).map State.tag).Nodup
  have hP : P search.store := by
    refine H.induct_store ⟨Consistent.start.grown, fun hs => ?_⟩ ?_
    · obtain ⟨rfl, rfl⟩ := get?_start_iff.1 hs
      rw [Consistent.start.grown.lineage_zero]
      exact List.nodup_singleton _
    rintro offered e t pending search H hkept ⟨hgrown, ih⟩
    obtain ⟨p, b, hexp, hpending⟩ := H.expanding.2 (List.cons_ne_nil _ _)
    have ht := hpending _ List.mem_cons_self
    have hgrown' : ctx.Grown (search.store.push t) := hgrown.push hexp.stored hexp.notFinal ht
    have hold : ∀ {i a}, search.store.get? i = some a →
        (search.store.push t).lineage i = search.store.lineage i :=
      hgrown.lineage_eq hgrown' StateStore.get?_push_of_get?
    refine ⟨hgrown', fun hs => ?_⟩
    rcases StateStore.get?_push_cases hs with hs | ⟨rfl, rfl⟩
    · rw [hold hs]
      exact ih hs
    · have hp := Context.parent_of_mem_successors ht
      rw [hgrown'.lineage_of_parent hs hp, hold hexp.stored, List.map_append, List.map_singleton,
        ← List.concat_eq_append]
      exact (ih hexp.stored).concat (H.tag_not_mem hplain hrule hcosts hp hkept)
  exact hP.2 hs

end

/-! ## Siblings -/

section
variable {R : Type} [Quantity R] [Geodesy R] {ctx : Context R} {search : Search R}
  {offered : List (State R)} {pending : List (EdgeIndex × State R)} {s t : State R}
  {i j id : StateId}

omit [Geodesy R] in
/-- The states that an edge was followed to are told apart by it. -/
theorem successors_key_nodup (ctx : Context R) (id : StateId) (s : State R) :
    ((ctx.successors id s).map fun p => p.2.key).Nodup := by
  have hentries := List.pairwise_map.1 (List.nodup_append.1 ctx.graph.edges.nodup).1
  have hedges : (ctx.successors id s).Pairwise fun p q => p.1 ≠ q.1 := by
    refine List.pairwise_filterMap.2 ((hentries.filter _).imp fun hne p hp q hq => ?_)
    obtain ⟨-, -, rfl⟩ := Option.map_eq_some_iff.1 hp
    obtain ⟨-, -, rfl⟩ := Option.map_eq_some_iff.1 hq
    exact hne
  refine List.pairwise_map.2 (hedges.imp_of_mem fun {p q} hp hq hne heq => hne ?_)
  obtain ⟨edge, -, -, -, -, hback⟩ := Context.edge_of_mem_successors hp
  obtain ⟨edge', -, -, -, -, hback'⟩ := Context.edge_of_mem_successors hq
  have hboth : p.2.back = q.2.back := congrArg Prod.snd heq
  rw [hback, hback', Option.some.injEq, BackEdge.mk.injEq] at hboth
  exact hboth.1

/-- No two states come from the same state over the same edge, be they stored or pending. -/
theorem Moment.key_nodup (H : Moment ctx offered pending search) :
    (search.store.states.toList.map State.key ++ pending.map fun p => p.2.key).Nodup := by
  induction H with
  | start => simp [start_store, StateStore.push, StateStore.empty]
  | arrive _ _ hnext hs hf ih =>
    rw [settle_of_isFinal hs hf, note, (next?_rest hnext).1]
    exact ih
  | @expand _ search rest id s H _ hnext _ _ ih =>
    obtain ⟨events, heq⟩ := noteAll_eq (rest.note (.visited s)) (ctx.successors id s)
    rw [heq, note, (next?_rest hnext).1]
    rw [List.map_nil, List.append_nil] at ih
    refine List.nodup_append.2 ⟨ih, successors_key_nodup ctx id s, ?_⟩
    rintro _ ha _ hb rfl
    -- Nothing stored has come yet from a state that was waiting.
    obtain ⟨a, ha, hkey⟩ := List.mem_map.1 ha
    obtain ⟨p, hp, hkey'⟩ := List.mem_map.1 hb
    have hparent : a.parent = some id :=
      (congrArg Prod.fst (hkey.trans hkey'.symm)).trans (Context.parent_of_mem_successors hp)
    obtain ⟨i, hi⟩ := List.mem_iff_getElem?.1 ha
    have hqueued := H.consistent.queued
    exact (hqueued.fresh (by simpa [StateStore.get?] using hi) hparent).2
      (hqueued.next? hnext).2.1
  | @offer _ search e s pending _ ih =>
    rw [relax_eq]
    split
    · exact ih.sublist ((List.Sublist.refl _).append (List.sublist_cons_self _ _))
    · simpa [accept, note, StateStore.push] using ih

theorem Moment.eq_of_key (H : Moment ctx offered pending search)
    (hs : search.store.get? i = some s) (ht : search.store.get? j = some t) (h : s.key = t.key) :
    i = j := by
  have hnodup := (List.nodup_append.1 H.key_nodup).1
  have hi := StateStore.lt_size_of_get? hs
  refine (List.getElem?_inj (by simpa [StateStore.size] using hi) hnodup).1 ?_
  simp only [StateStore.get?] at hs ht
  simp [hs, ht, h]

/-- A state is told by the tags of its lineage. -/
theorem Moment.lineage_inj (H : Moment ctx offered pending search)
    (hs : search.store.get? i = some s) (ht : search.store.get? j = some t)
    (h : (search.store.lineage i).map State.tag = (search.store.lineage j).map State.tag) :
    i = j := by
  have hgrown := H.consistent.grown
  induction i using Nat.strong_induction_on generalizing j s t with
  | _ i ih =>
    have hlength : (search.store.lineage i).length = (search.store.lineage j).length := by
      simpa using congrArg List.length h
    rcases hgrown.lineage_cases hs with ⟨rfl, hi⟩ | ⟨p, a, e, hlt, ha, hstep, hi⟩ <;>
      rcases hgrown.lineage_cases ht with ⟨rfl, hj⟩ | ⟨q, b, e', -, hb, hstep', hj⟩
    · rfl
    · simp only [hi, hj, List.length_append, List.length_singleton] at hlength
      exact absurd (List.eq_nil_of_length_eq_zero (by omega)) (hgrown.lineage_ne_nil hb)
    · simp only [hi, hj, List.length_append, List.length_singleton] at hlength
      exact absurd (List.eq_nil_of_length_eq_zero (by omega)) (hgrown.lineage_ne_nil ha)
    · rw [hi, hj, List.map_append, List.map_append] at h
      obtain ⟨hinit, hlast⟩ := List.append_inj' h rfl
      have htag : s.tag = t.tag := List.singleton_injective hlast
      obtain rfl : p = q := ih p hlt ha hb hinit
      refine H.eq_of_key hs ht (Prod.ext ?_ (congrArg (fun tag => tag.2.1) htag))
      exact (Context.parent_of_mem_successors hstep).trans
        (Context.parent_of_mem_successors hstep').symm

end

end Search

/-! ## Enough room -/

/-- Lists without repetition of finitely many things are finitely many. -/
theorem finite_nodup_lists {α : Type} {things : Set α} (h : things.Finite) :
    {l : List α | l.Nodup ∧ ∀ x ∈ l, x ∈ things}.Finite := by
  classical
  have := h.fintype
  refine (Set.finite_range fun l : {l : List things // l.Nodup} =>
    l.1.map Subtype.val).subset ?_
  rintro l ⟨hnodup, hthings⟩
  have hsub : (l.attachWith (· ∈ things) hthings).map Subtype.val = l :=
    List.attachWith_map_subtype_val hthings
  exact ⟨⟨l.attachWith _ hthings, .of_map Subtype.val (by rwa [hsub])⟩, hsub⟩

namespace Context

section
variable {R : Type} [Quantity R] {ctx : Context R} {n : Nat} {s : State R}

/-- The tags of the states that can be reached. -/
def tags (ctx : Context R) : Set (VertexIndex × Option BackEdge × Plane) :=
  {tag | ∃ s, ctx.Reachable s ∧ s.tag = tag}

/-- The sequences of tags in which none is repeated. -/
def lineages (ctx : Context R) : Set (List (VertexIndex × Option BackEdge × Plane)) :=
  {tags | tags.Nodup ∧ ∀ tag ∈ tags, tag ∈ ctx.tags}

theorem finite_lineages (ctx : Context R) : ctx.lineages.Finite := by
  refine finite_nodup_lists ((ctx.situations_finite.image State.tag).subset ?_)
  rintro _ ⟨s, hs, rfl⟩
  exact ⟨s.atRest, ⟨s, hs, rfl⟩, rfl⟩

/-- The request asking for another number of itineraries. -/
def asking (ctx : Context R) (count : Nat) : Context R :=
  { ctx with request := { ctx.request with numItineraries := count } }

theorem asking_reachable_iff : (ctx.asking n).Reachable s ↔ ctx.Reachable s :=
  ⟨fun h => h.congr rfl fun h => h, fun h => h.congr rfl fun h => h⟩

theorem asking_lineages : (ctx.asking n).lineages = ctx.lineages := by
  simp only [lineages, tags, asking_reachable_iff]

end

variable {R : Type} [Field R] [LinearOrder R] [IsStrictOrderedRing R] [FloorRing R] [Geodesy R]
  {ctx : Context R}

/-- Nobody goes around in circles: at every moment of a run the states up to a stored one differ in
where they are, over which edge they came or in which situation. So all runs end within the same
number of steps, and if they do not find as many states as they look for, no state is left to be
served. -/
structure RunsDry (ctx : Context R) : Prop where
  lineage_nodup : ∀ {offered pending search}, Search.Moment ctx offered pending search →
    ∀ {id s}, search.store.get? id = some s → ((search.store.lineage id).map State.tag).Nodup
  exhausted : ∃ bound, ∀ count steps, bound < steps →
    (Search.run (ctx.asking count) steps (Search.start (ctx.asking count))).2 ≠ .outOfSteps ∧
      (bound < count →
        (Search.run (ctx.asking count) steps (Search.start (ctx.asking count))).2 = .exhausted ∧
          (Search.run (ctx.asking count) steps (Search.start (ctx.asking count))).1.next? = none)

end Context

namespace Search

variable {R : Type} [Field R] [LinearOrder R] [IsStrictOrderedRing R] [FloorRing R] [Geodesy R]
  {ctx : Context R} {search : Search R} {n : Nat}

/-- No more states are stored than there are lineages. -/
theorem Reached.size_le (H : search.Reached ctx) (hplain : ctx.graph.IsUntimed)
    (hrule : ctx.request.dominance ≠ .pareto) (hcosts : ctx.NeverLowers) :
    search.store.size ≤ ctx.lineages.ncard := by
  obtain ⟨offered, hmoment⟩ := H.moment
  rw [Set.ncard_eq_toFinset_card _ ctx.finite_lineages, ← Finset.card_range search.store.size]
  refine Finset.card_le_card_of_injOn (fun i => (search.store.lineage i).map State.tag) ?_ ?_
  · intro i hi
    obtain ⟨s, hs⟩ := StateStore.get?_isSome_of_lt (Finset.mem_range.1 hi)
    refine (Set.Finite.mem_toFinset _).2
      ⟨hmoment.lineage_nodup hplain hrule hcosts hs, fun tag htag => ?_⟩
    obtain ⟨a, ha, rfl⟩ := List.mem_map.1 htag
    obtain ⟨j, hj⟩ := StateStore.exists_of_mem_lineage ha
    exact ⟨a, H.consistent.grown.reachable hj, rfl⟩
  · intro i hi j hj h
    obtain ⟨s, hs⟩ := StateStore.get?_isSome_of_lt (Finset.mem_range.1 hi)
    obtain ⟨t, ht⟩ := StateStore.get?_isSome_of_lt (Finset.mem_range.1 hj)
    exact hmoment.lineage_inj hs ht h

/-- A run ends within as many steps as there are lineages. -/
theorem run_ne_outOfSteps (hplain : ctx.graph.IsUntimed) (hrule : ctx.request.dominance ≠ .pareto)
    (hcosts : ctx.NeverLowers) (hn : ctx.lineages.ncard < n) :
    (run ctx n (start ctx)).2 ≠ .outOfSteps := fun h => by
  have hsize := le_size_of_outOfSteps h
  have hlineages := (reached_run (n := n)).size_le hplain hrule hcosts
  omega

/-- A run that looks for more states than there are lineages leaves none waiting. -/
theorem run_eq_exhausted (hplain : ctx.graph.IsUntimed) (hrule : ctx.request.dominance ≠ .pareto)
    (hcosts : ctx.NeverLowers) (hn : ctx.lineages.ncard < n)
    (hcount : ctx.lineages.ncard < ctx.request.numItineraries) :
    (run ctx n (start ctx)).2 = .exhausted := by
  have hended := run_ne_outOfSteps hplain hrule hcosts hn
  have hstart : (start ctx).Reached ctx := .start
  obtain ⟨last, reason, hrun, hlast, henough, -⟩ := run_cases (n := n) hstart
  have hsize := hlast.size_le hplain hrule hcosts
  have hfound := hlast.found_length_le_size
  rw [hrun] at hended ⊢
  dsimp only at hended ⊢
  cases reason with
  | enough =>
    have hlength := henough rfl
    omega
  | exhausted => rfl
  | outOfSteps => exact absurd rfl hended

end Search

/-- Searches by one kind of cost, which never falls, run dry where there are no guaranteed
changes. -/
theorem Context.runsDry {R : Type} [Field R] [LinearOrder R] [IsStrictOrderedRing R] [FloorRing R]
    [Geodesy R] {ctx : Context R} (hplain : ctx.graph.IsUntimed)
    (hrule : ctx.request.dominance ≠ .pareto) (hcosts : ctx.NeverLowers) : ctx.RunsDry where
  lineage_nodup H := H.lineage_nodup hplain hrule hcosts
  exhausted := by
    refine ⟨ctx.lineages.ncard, fun count steps hsteps => ?_⟩
    have hcosts' : (ctx.asking count).NeverLowers := fun ha h =>
      hcosts (asking_reachable_iff.1 ha) h
    have hlineages : (ctx.asking count).lineages.ncard = ctx.lineages.ncard := by
      rw [asking_lineages]
    rw [← hlineages] at hsteps ⊢
    refine ⟨Search.run_ne_outOfSteps hplain hrule hcosts' hsteps, fun hcount => ?_⟩
    have hexhausted : (Search.run (ctx.asking count) steps (Search.start (ctx.asking count))).2 =
        .exhausted := Search.run_eq_exhausted hplain hrule hcosts' hsteps hcount
    exact ⟨hexhausted, Search.next?_run_of_exhausted hexhausted⟩

/-! ## A street both ways -/

namespace Errand

/-- A street between home and the shop, and one from there to work. -/
def graph : Graph ℚ :=
  .build
    [.intersection "home" ⟨0, 0⟩, .intersection "shop" ⟨1, 0⟩, .intersection "work" ⟨2, 0⟩]
    [(0, 1, .street (.plain 1 1000 .allStreet)), (1, 0, .street (.plain 1 1000 .allStreet)),
      (1, 2, .street (.plain 2 1000 .allStreet))]

/-- A walk to work. -/
def walk : Context ℚ := .placed Bypass.request graph 0 2 ⟨0, 0⟩ ⟨2, 0⟩

theorem of_request : Context.of Bypass.request graph = .ok walk :=
  Context.of_placed (by decide +kernel) rfl rfl (by decide +kernel) (by decide +kernel) (by decide)

/-- Nobody walks back home from the shop. -/
theorem runsDry_to_work : walk.graph.IsUntimed ∧ walk.request.dominance ≠ .pareto ∧
    walk.NeverLowers ∧ walk.RunsDry := by
  have hplain : walk.graph.IsUntimed := by decide
  have hrule : walk.request.dominance ≠ .pareto := by decide
  have hmeasured := Context.isMeasured_of of_request (by decide +kernel) (by decide +kernel)
  exact ⟨hplain, hrule, hmeasured.neverLowers,
    Context.runsDry hplain hrule hmeasured.neverLowers⟩

end Errand

end TripPlanner
