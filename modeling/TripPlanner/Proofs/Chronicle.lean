import TripPlanner.Proofs.Endless
import TripPlanner.Proofs.Serving

/-!
# Chronicles

A run that does not end serves one state after the other, each of them once. A `Chronicle` is its
history together with this order: a state comes to be when the one that it follows is served, so
that whatever prunes a state that was served comes to be no sooner than that.
-/

namespace TripPlanner

namespace StateStore

variable {R : Type} [Quantity R] [Geodesy R] {ctx : Context R} {store store' : StateStore R}
  {st : Nat → State R} {s : State R} {i k : StateId}

omit [Quantity R] [Geodesy R] in
theorem PartOf.get?_of_lt (hpart : store.PartOf st) (hk : k < store.size) :
    store.get? k = some (st k) := by
  obtain ⟨a, ha⟩ := get?_isSome_of_lt hk
  rw [ha, hpart ha]

omit [Quantity R] [Geodesy R] in
theorem PartOf.parent?_eq (hpart : store.PartOf st) (hs : store.HoldsParent s) :
    store.parent? s = s.parent.map st := by
  unfold parent?
  cases hp : s.parent with
  | none => rfl
  | some p => exact hpart.get?_of_lt (hs p hp)

/-- Whether a state prunes another one does not hang on the store that they are in. -/
theorem Prunes.of_partOf (H : store.Prunes ctx k i) (hgrown : ctx.Grown store)
    (hpart : store.PartOf st) (hgrown' : ctx.Grown store') (hpart' : store'.PartOf st)
    (hk : k < store'.size) : store'.Prunes ctx k i where
  later := H.later
  dominates := by
    obtain ⟨a, b, ha, hb, hv, hab, hba⟩ := H.dominates
    cases hpart ha
    cases hpart hb
    have hk' := hpart'.get?_of_lt hk
    have hi' := hpart'.get?_of_lt (H.later.trans hk)
    have hsame : ∀ {j c}, store.get? j = some (st j) → store'.get? j = some (st j) →
        ctx.dominates ctx.request.dominance store' (st j) c =
          ctx.dominates ctx.request.dominance store (st j) c := by
      intro j c hj hj'
      unfold Context.dominates boardedAfterChange
      rw [hpart.parent?_eq (hgrown.born hj).holdsParent,
        hpart'.parent?_eq (hgrown'.born hj').holdsParent]
    exact ⟨_, _, hk', hi', hv, (hsame ha hk').trans hab, (hsame hb hi').trans hba⟩

end StateStore

/-- A history, and the order in which its states were served. -/
structure Context.Chronicle {R : Type} [Field R] [LinearOrder R] [IsStrictOrderedRing R]
    [FloorRing R] [Geodesy R] (ctx : Context R) (st : Nat → State R) (served : Nat → StateId) :
    Prop extends ctx.History st where
  once : Function.Injective served
  born : ∀ {i}, 0 < i → ∃ n, (st i).parent = some (served n)
  older : ∀ {i p}, (st i).parent = some p → p < i
  inOrder : ∀ {i k n m}, i < k → (st i).parent = some (served n) →
    (st k).parent = some (served m) → n ≤ m
  prunedAfter : ∀ {k n}, ctx.Prunes st k (served n) → ∃ m ≥ n, (st k).parent = some (served m)
  inTurn : ctx.NeverLowersPriority →
    Monotone fun n => (st (served n)).weight + ctx.remainingWeight (st (served n)).vertex

namespace Search

section
variable {R : Type} [Quantity R] [Geodesy R] {ctx : Context R} {search : Search R} {i id : StateId}

/-- What waits after a step has waited before, or is new. -/
theorem settle_ids (hi : i ∈ (search.settle ctx id).queue.ids) :
    i ∈ search.queue.ids ∨ search.store.size ≤ i := by
  cases hs : search.store.get? id with
  | none => exact .inl (by simpa [settle, hs] using hi)
  | some s =>
    rw [settle_eq hs] at hi
    split at hi
    · exact .inl hi
    · let P (next : Search R) : Prop := search.store.size ≤ next.store.size ∧
        ∀ i ∈ next.queue.ids, i ∈ search.queue.ids ∨ search.store.size ≤ i
      have hstart : P (search.note (.visited s)) := ⟨le_rfl, fun _ => .inl⟩
      refine (expand_keeps (P := P) (fun _ _ h => h) (fun next _ _ _ _ h => ?_) hstart).2 i hi
      refine ⟨h.1.trans (by simp [accept]), fun j hj => ?_⟩
      rcases Queue.mem_ids_push.1 hj with rfl | hj
      · exact .inr h.1
      · exact h.2 j hj

/-- The states that an endless run serves, and what it leaves to wait each time. -/
structure Agenda (ctx : Context R) (seq : Nat → Search R) (served : Nat → StateId)
    (rest : Nat → Search R) : Prop where
  next : ∀ n, (seq n).next? = some (served n, rest n)
  settles : ∀ n, seq (n + 1) = (rest n).settle ctx (served n)

end

namespace Endless

section
variable {R : Type} [Quantity R] [Geodesy R] {ctx : Context R} {seq rest : Nat → Search R}
  {st : Nat → State R} {served : Nat → StateId} {i k : StateId} {n m : Nat}

theorem exists_agenda (H : Endless ctx seq) : ∃ served rest, Agenda ctx seq served rest := by
  choose served rest hnext hsettles using H.settled
  exact ⟨served, rest, hnext, hsettles⟩

theorem size_mono (H : Endless ctx seq) (h : n ≤ m) : (seq n).store.size ≤ (seq m).store.size := by
  by_contra! hlt
  obtain ⟨a, ha⟩ := StateStore.get?_isSome_of_lt hlt
  exact Nat.lt_irrefl _ (StateStore.lt_size_of_get? (H.get?_of_le ha h))

theorem served_lt_size (H : Endless ctx seq) (hagenda : Agenda ctx seq served rest) :
    served n < (seq n).store.size := by
  have hqueued := (H.reached n).consistent.queued
  exact hqueued.stored _ (hqueued.next? (hagenda.next n)).2.1

/-- What was served does not wait again. -/
theorem notMem_ids (H : Endless ctx seq) (hagenda : Agenda ctx seq served rest) (h : n < m) :
    served n ∉ (seq m).queue.ids := by
  have hold : ∀ {k}, n ≤ k → served n ∈ (seq (k + 1)).queue.ids →
      served n ∈ (rest k).queue.ids := by
    intro k hk hi
    rw [hagenda.settles k] at hi
    refine (settle_ids hi).resolve_right fun hle => ?_
    rw [(next?_rest (hagenda.next k)).1] at hle
    exact Nat.lt_irrefl _ ((H.served_lt_size hagenda).trans_le ((H.size_mono hk).trans hle))
  induction m, h using Nat.le_induction with
  | base =>
    intro hi
    have hqueued := (H.reached n).consistent.queued
    exact (hqueued.next? (hagenda.next n)).2.2 (hold le_rfl hi)
  | succ m hm ih =>
    intro hi
    have hrest := hold (Nat.le_of_succ_le hm) hi
    obtain ⟨_, _, _, hwaiting, -, -, -, hbehind⟩ := next?_eq_some_iff.1 (hagenda.next m)
    refine ih ?_
    rw [hbehind] at hrest
    simp only [Queue.ids, hwaiting, List.map_append, List.map_cons] at hrest ⊢
    exact List.mem_append_right _ (List.mem_cons_of_mem _ hrest)

theorem served_injective (H : Endless ctx seq) (hagenda : Agenda ctx seq served rest) :
    Function.Injective served := by
  have hne : ∀ {n m}, n < m → served n ≠ served m := by
    intro n m hlt heq
    have hwaits := ((H.reached m).consistent.queued.next? (hagenda.next m)).2.1
    exact H.notMem_ids hagenda hlt (heq ▸ hwaits)
  intro n m heq
  rcases Nat.lt_trichotomy n m with hlt | rfl | hlt
  · exact absurd heq (hne hlt)
  · rfl
  · exact absurd heq.symm (hne hlt)

/-- Every state but the first comes to be in some step, and follows the state that is served in
it. -/
theorem exists_born (H : Endless ctx seq) (hagenda : Agenda ctx seq served rest)
    (hpart : ∀ n, (seq n).store.PartOf st) (hst : ∀ i, ∃ n, (seq n).store.get? i = some (st i))
    (hi : 0 < i) : ∃ n, (seq n).store.size ≤ i ∧ i < (seq (n + 1)).store.size ∧
      (st i).parent = some (served n) := by
  classical
  have hstored : ∃ n, i < (seq n).store.size := by
    obtain ⟨n, hn⟩ := hst i
    exact ⟨n, StateStore.lt_size_of_get? hn⟩
  obtain ⟨n, hn⟩ : ∃ n, Nat.find hstored = n + 1 := by
    refine Nat.exists_eq_succ_of_ne_zero fun hzero => ?_
    have hlt := Nat.find_spec hstored
    rw [hzero, H.start, start_store, StateStore.size_push] at hlt
    exact absurd hlt (Nat.not_lt.2 hi)
  have hbefore : (seq n).store.size ≤ i := Nat.not_lt.1 (Nat.find_min hstored (by omega))
  have hlt : i < (seq (n + 1)).store.size := hn ▸ Nat.find_spec hstored
  refine ⟨n, hbefore, hlt, ?_⟩
  have hget := StateStore.PartOf.get?_of_lt (hpart (n + 1)) hlt
  rw [hagenda.settles] at hget
  refine (get?_settle_cases hget).resolve_left fun hold => ?_
  rw [(next?_rest (hagenda.next n)).1] at hold
  exact absurd (StateStore.lt_size_of_get? hold) (Nat.not_lt.2 hbefore)

end

section
variable {R : Type} [Field R] [LinearOrder R] [IsStrictOrderedRing R] [FloorRing R] [Geodesy R]
  {ctx : Context R} {seq rest : Nat → Search R} {st : Nat → State R} {served : Nat → StateId}

theorem priority_served_mono (H : Endless ctx seq) (hagenda : Agenda ctx seq served rest)
    (hpart : ∀ n, (seq n).store.PartOf st) (hprices : ctx.NeverLowersPriority) :
    Monotone fun n => (st (served n)).weight + ctx.remainingWeight (st (served n)).vertex := by
  have hpriced : ∀ {n w}, w ∈ (seq n).queue.waiting →
      w.priority = (st w.id).weight + ctx.remainingWeight (st w.id).vertex := by
    intro n w hw
    obtain ⟨s, hs, hpriority⟩ := (H.reached n).served.priced w hw
    rw [hpriority, hpart n hs]
  refine monotone_nat_of_le_succ fun n => ?_
  obtain ⟨dropped, w, behind, hwaiting, -, -, hid, hbehind⟩ := next?_eq_some_iff.1 (hagenda.next n)
  obtain ⟨_, w', _, hwaiting', -, -, hid', -⟩ := next?_eq_some_iff.1 (hagenda.next (n + 1))
  have hmem : w ∈ (seq n).queue.waiting := by simp [hwaiting]
  have hmem' : w' ∈ (seq (n + 1)).queue.waiting := by simp [hwaiting']
  have hbehind' : (rest n).queue.waiting = behind := by rw [hbehind]
  have hfrom : ∀ x ∈ w :: (rest n).queue.waiting, w.priority ≤ x.priority := by
    have hsorted := (H.reached n).served.sorted
    rw [hwaiting] at hsorted
    rw [hbehind']
    exact List.forall_mem_cons.2
      ⟨le_rfl, (List.pairwise_cons.1 (List.pairwise_append.1 hsorted).2.1).1⟩
  have hlater := (H.reached n).waitsFrom_settle hprices (hid ▸ hagenda.next n)
    (hbehind' ▸ hwaiting) hfrom
  have hle := hlater w' (by rwa [hid, ← hagenda.settles n])
  rwa [hpriced hmem, hpriced hmem', hid, hid'] at hle

/-- A run without end leaves a chronicle. -/
theorem chronicle (H : Endless ctx seq) : ∃ st served, ctx.Chronicle st served := by
  obtain ⟨st, hpart, hst⟩ := H.exists_states
  obtain ⟨served, rest, hagenda⟩ := H.exists_agenda
  have honce := H.served_injective hagenda
  have hpos : ∀ {i p}, (st i).parent = some p → 0 < i := by
    refine fun {i p} hp => Nat.pos_of_ne_zero fun hzero => ?_
    have horigin := hpart 0 (H.reached 0).consistent.grown.origin
    rw [hzero, horigin] at hp
    cases hp
  have hborn : ∀ {i n}, (st i).parent = some (served n) →
      (seq n).store.size ≤ i ∧ i < (seq (n + 1)).store.size := by
    intro i n hp
    obtain ⟨m, hbefore, hafter, hm⟩ := H.exists_born hagenda hpart hst (hpos hp)
    cases honce (Option.some.inj (hm.symm.trans hp))
    exact ⟨hbefore, hafter⟩
  have hexists : ∀ {i}, 0 < i → ∃ n, (st i).parent = some (served n) := fun hi =>
    (H.exists_born hagenda hpart hst hi).imp fun _ h => h.2.2
  refine ⟨st, served, ⟨H.history hpart hst, honce, hexists, fun {i p} hp => ?_,
    fun {i k n m} hlt hi hk => ?_, fun {k n} hk => ?_,
    fun hprices => H.priority_served_mono hagenda hpart hprices⟩⟩
  · obtain ⟨n, hn⟩ := hexists (hpos hp)
    cases hn.symm.trans hp
    exact (H.served_lt_size hagenda).trans_le (hborn hn).1
  · by_contra! hmn
    have hsize := (hborn hk).2.trans_le (H.size_mono hmn)
    exact absurd ((hborn hi).1.trans_lt (hlt.trans hsize)) (Nat.lt_irrefl _)
  · obtain ⟨store, hgrown, hpart', hprunes⟩ := hk
    obtain ⟨m, hm⟩ := hexists (Nat.zero_lt_of_lt hprunes.later)
    refine ⟨m, ?_, hm⟩
    by_contra! hmn
    have hlt := (hborn hm).2.trans_le (H.size_mono hmn)
    have hmarked := (H.reached n).sifted.marked
      (hprunes.of_partOf hgrown hpart' (H.reached n).consistent.grown (hpart n) hlt)
    obtain ⟨_, w, _, -, -, hcounts, hid, -⟩ := next?_eq_some_iff.1 (hagenda.next n)
    rw [hid, hmarked] at hcounts
    cases hcounts

end

end Endless

end Search

end TripPlanner
