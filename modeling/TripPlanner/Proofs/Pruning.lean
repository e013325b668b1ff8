import TripPlanner.Proofs.Boarding

/-!
# Pruning

Which states a search keeps is decided by the states alone: a stored state counts until a later one
at its vertex dominates it and is not dominated back (`StateStore.Prunes`), and a state that
dominates a later one was pruned before that was stored (`Search.Sifted`).
-/

namespace TripPlanner

section
variable {R : Type} [Quantity R] [Geodesy R]

/-- The later state makes the earlier one needless, and not the other way round. -/
structure StateStore.Prunes (store : StateStore R) (ctx : Context R) (k i : StateId) : Prop where
  later : i < k
  dominates : ∃ a b, store.get? k = some a ∧ store.get? i = some b ∧ a.vertex = b.vertex ∧
    ctx.dominates ctx.request.dominance store a b = true ∧
    ctx.dominates ctx.request.dominance store b a = false

variable {ctx : Context R} {store : StateStore R} {a b s t : State R} {i j k : StateId}
  {rule : DominanceRule}

theorem StateStore.Prunes.push (H : store.Prunes ctx k i) (hgrown : ctx.Grown store) :
    (store.push s).Prunes ctx k i where
  later := H.later
  dominates := by
    obtain ⟨a, b, ha, hb, hv, hab, hba⟩ := H.dominates
    refine ⟨a, b, get?_push_of_get? ha, get?_push_of_get? hb, hv, ?_, ?_⟩
    · rw [Context.dominates_push (hgrown.born ha).holdsParent, hab]
    · rw [Context.dominates_push (hgrown.born hb).holdsParent, hba]

theorem StateStore.Prunes.of_push (H : (store.push s).Prunes ctx k i) (hgrown : ctx.Grown store)
    (hk : k < store.size) : store.Prunes ctx k i where
  later := H.later
  dominates := by
    obtain ⟨a, b, ha, hb, hv, hab, hba⟩ := H.dominates
    have ha' := get?_of_push hk ha
    have hb' := get?_of_push (H.later.trans hk) hb
    rw [Context.dominates_push (hgrown.born ha').holdsParent] at hab
    rw [Context.dominates_push (hgrown.born hb').holdsParent] at hba
    exact ⟨a, b, ha', hb', hv, hab, hba⟩

end

namespace Search

variable {R : Type} [Quantity R] [Geodesy R] {ctx : Context R} {search next rest : Search R}
  {s t : State R} {i id : StateId} {e : EdgeIndex}

/-- A stored state counts unless a later one prunes it, and is marked then. One that dominates a
later one was pruned before. -/
structure Sifted (ctx : Context R) (search : Search R) : Prop where
  counts : ∀ {i s}, search.store.get? i = some s →
    i ∈ search.tree.at? s.vertex ∨ ∃ k, search.store.Prunes ctx k i
  pruned : ∀ {i j a b}, i < j → search.store.get? i = some a → search.store.get? j = some b →
    a.vertex = b.vertex → ctx.dominates ctx.request.dominance search.store a b = true →
    ∃ k, search.store.Prunes ctx k i
  marked : ∀ {i k}, search.store.Prunes ctx k i → search.tree.isPruned i = true

theorem Sifted.of_eq (H : search.Sifted ctx) (hstore : next.store = search.store)
    (htree : next.tree = search.tree) : next.Sifted ctx where
  counts h := by
    rw [hstore, htree] at *
    exact H.counts h
  pruned hlt ha hb hv h := by
    rw [hstore] at *
    exact H.pruned hlt ha hb hv h
  marked h := by
    rw [hstore, htree] at *
    exact H.marked h

/-- A state that a new one beats is pruned by it: otherwise the new one would have been rejected. -/
theorem prunes_of_beaten (hcons : search.Consistent ctx) (hs : ctx.Born search.store s)
    (hkept : search.tree.rejects ctx search.store s = false)
    (hi : i ∈ search.tree.beaten ctx search.store s) :
    (search.store.push s).Prunes ctx search.store.size i := by
  obtain ⟨hat, b, hb, hdom⟩ := Tree.mem_beaten.1 hi
  have hv := hcons.kept.vertex_eq hat hb
  have hback := Tree.not_dominates_of_not_rejects hkept hat hb
  rw [hcons.kept.goesBy] at hdom hback
  refine ⟨StateStore.lt_size_of_get? hb, s, b, StateStore.get?_push_size,
    StateStore.get?_push_of_get? hb, hv.symm, ?_, ?_⟩
  · rw [Context.dominates_push hs.holdsParent, hdom]
  · rw [Context.dominates_push (hcons.grown.born hb).holdsParent, hback]

theorem Sifted.accept (H : search.Sifted ctx) (hcons : search.Consistent ctx)
    (hs : ctx.Born search.store s) (hkept : search.tree.rejects ctx search.store s = false) :
    (search.accept ctx s).Sifted ctx where
  counts {i a} hget := by
    rcases StateStore.get?_push_cases hget with hold | ⟨rfl, rfl⟩
    · rcases H.counts hold with hat | ⟨k, hk⟩
      · by_cases hbeaten : i ∈ search.tree.beaten ctx search.store s
        · exact .inr ⟨_, prunes_of_beaten hcons hs hkept hbeaten⟩
        · exact .inl (Tree.mem_accept_at?.2 (.inl ⟨hat, fun _ => hbeaten⟩))
      · exact .inr ⟨k, hk.push hcons.grown⟩
    · exact .inl (Tree.mem_accept_at?.2 (.inr ⟨rfl, rfl⟩))
  pruned {i j a b} hlt ha hb hv hdom := by
    have hi : i < search.store.size := by
      have hj := StateStore.lt_size_of_get? hb
      simp only [Search.accept, StateStore.size_push] at hj
      exact Nat.lt_of_lt_of_le hlt (Nat.le_of_lt_succ hj)
    have ha' := StateStore.get?_of_push hi ha
    rw [Search.accept, Context.dominates_push (hcons.grown.born ha').holdsParent] at hdom
    have hold : ∃ k, search.store.Prunes ctx k i := by
      rcases StateStore.get?_push_cases hb with hb | ⟨rfl, rfl⟩
      · exact H.pruned hlt ha' hb hv hdom
      · -- A state that counts would have kept the new one out.
        refine (H.counts ha').resolve_left fun hat => ?_
        rw [← hcons.kept.goesBy,
          Tree.not_dominates_of_not_rejects hkept (hv ▸ hat) ha'] at hdom
        cases hdom
    obtain ⟨k, hk⟩ := hold
    exact ⟨k, hk.push hcons.grown⟩
  marked {i k} h := by
    apply Tree.accept_isPruned.2
    obtain ⟨a, b, ha, hb, hv, hdom, -⟩ := h.dominates
    rcases StateStore.get?_push_cases ha with hold | ⟨rfl, rfl⟩
    · exact .inl (H.marked (h.of_push hcons.grown (StateStore.lt_size_of_get? hold)))
    · have hb' := StateStore.get?_of_push h.later hb
      rcases H.counts hb' with hat | ⟨k', hk'⟩
      · refine .inr (Tree.mem_beaten.2 ⟨hv ▸ hat, b, hb', ?_⟩)
        rw [Search.accept, Context.dominates_push hs.holdsParent] at hdom
        rwa [hcons.kept.goesBy]
      · exact .inl (H.marked hk')

theorem Sifted.start : (start ctx).Sifted ctx where
  counts h := by
    obtain ⟨rfl, rfl⟩ := get?_start_iff.1 h
    rw [start_eq]
    exact .inl (Tree.mem_accept_at?.2 (.inr ⟨rfl, rfl⟩))
  pruned hlt _ hb _ _ := by
    rw [(get?_start_iff.1 hb).1] at hlt
    exact absurd hlt (Nat.not_lt_zero _)
  marked h := by
    obtain ⟨a, _, ha, -⟩ := h.dominates
    have hlt := h.later
    rw [(get?_start_iff.1 ha).1] at hlt
    exact absurd hlt (Nat.not_lt_zero _)

theorem Sifted.settle (H : search.Sifted ctx) (hcons : search.Consistent ctx)
    (hs : search.store.get? id = some s) (hpopped : id ∉ search.queue.ids) :
    (search.settle ctx id).Sifted ctx := by
  rw [settle_eq hs]
  split
  · exact H.of_eq rfl rfl
  · rename_i hf
    let P (search : Search R) : Prop := Expanding ctx id s search ∧ search.Sifted ctx
    have hstart : Expanding ctx id s (search.note (.visited s)) :=
      ⟨hcons.note, hs, Bool.not_eq_true _ ▸ hf, hpopped⟩
    refine (expand_keeps (P := P) ?_ ?_ ⟨hstart, H.of_eq rfl rfl⟩).2
    · rintro search event ⟨hexp, hsifted⟩
      exact ⟨hexp.note, hsifted.of_eq rfl rfl⟩
    · rintro search e t ht hkept ⟨hexp, hsifted⟩
      exact ⟨hexp.accept ht,
        hsifted.accept hexp.consistent (.inr ⟨id, s, e, hexp.stored, ht⟩) hkept⟩

theorem Reached.sifted (H : search.Reached ctx) : search.Sifted ctx :=
  H.induct .start fun _ hsifted hnext hrest hs hpopped =>
    (hsifted.of_eq (next?_rest hnext).1 (next?_rest hnext).2.1).settle hrest hs hpopped

end Search

end TripPlanner
