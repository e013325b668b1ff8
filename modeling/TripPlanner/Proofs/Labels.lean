import Mathlib.Data.List.Nodup
import TripPlanner.Proofs.Growth
import TripPlanner.Proofs.Placement

/-!
# Labels

What a tree makes of the states that it is offered one after the other, whatever states these are
and whatever rule compares them. Each stored state is a label at its vertex or pruned; the labels
at a vertex are in the order of addition, and none of them dominates another one
(`Tree.wellLabelled_of_offered`).

That no label dominates a later one is what rejecting is for, and that none dominates an earlier
one is what pruning is for. Both look at the store as it was when the later one came; dominance
reads nothing of it but predecessors, so that it stays as it was (`Context.dominates_push`).
-/

namespace TripPlanner

namespace Tree

variable {R : Type} [Quantity R] [Geodesy R]

/-- The tree and the store after a state was offered. -/
def offer (ctx : Context R) (kept : Tree × StateStore R) (s : State R) : Tree × StateStore R :=
  ((kept.1.add ctx kept.2 s).map Prod.snd).getD kept

/-- What comes of the empty tree when states are offered one after the other, each of them after
the state that it came from was stored. -/
inductive Offered (ctx : Context R) (rule : DominanceRule) :
    List (State R) → Tree × StateStore R → Prop where
  | nil : Offered ctx rule [] (.empty rule, .empty)
  | snoc {states kept s} : Offered ctx rule states kept → kept.2.HoldsParent s →
      Offered ctx rule (states ++ [s]) (offer ctx kept s)

/-- The labels of a tree are in order. -/
structure WellLabelled (ctx : Context R) (rule : DominanceRule) (tree : Tree)
    (store : StateStore R) : Prop where
  /-- No number is listed twice, be it at one vertex or at two. -/
  nodup : tree.labels.values.flatten.Nodup
  increasing : ∀ v, (tree.at? v).Pairwise (· < ·)
  atVertex : ∀ v, ∀ i ∈ tree.at? v, ∃ s, store.get? i = some s ∧ s.vertex = v
  listedOrPruned : ∀ i < store.size, (∃! v, i ∈ tree.at? v) ∧ tree.isPruned i = false ∨
    (∀ v, i ∉ tree.at? v) ∧ tree.isPruned i = true
  antichain : ∀ v, ∀ i ∈ tree.at? v, ∀ j ∈ tree.at? v, i ≠ j → ∀ a ∈ store.get? i,
    ∀ b ∈ store.get? j, ctx.dominates rule store a b = false

/-- What every offer keeps up. -/
structure Labelled (ctx : Context R) (rule : DominanceRule) (tree : Tree)
    (store : StateStore R) : Prop extends tree.Kept rule store where
  parents : ∀ {i s}, store.get? i = some s → store.HoldsParent s
  listed : ∀ {i s}, store.get? i = some s → tree.isPruned i = false → i ∈ tree.at? s.vertex
  increasing : ∀ v, (tree.at? v).Pairwise (· < ·)
  antichain : ∀ {v i j a b}, i ∈ tree.at? v → j ∈ tree.at? v → i ≠ j → store.get? i = some a →
    store.get? j = some b → ctx.dominates rule store a b = false

variable {ctx : Context R} {rule : DominanceRule} {tree : Tree} {store : StateStore R}
  {s a b : State R} {v : VertexIndex} {i j : StateId}

/-! ## One offer -/

namespace Labelled

theorem accept_listed (H : Labelled ctx rule tree store)
    (ha : (store.push s).get? i = some a) (hcounts : (tree.accept ctx store s).isPruned i = false) :
    i ∈ (tree.accept ctx store s).at? a.vertex := by
  rw [mem_accept_at?]
  rw [accept_counts] at hcounts
  rcases StateStore.get?_push_cases ha with hold | ⟨rfl, rfl⟩
  · exact .inl ⟨H.listed hold hcounts.1, fun _ => hcounts.2⟩
  · exact .inr ⟨rfl, rfl⟩

theorem accept_increasing (H : Labelled ctx rule tree store) (v : VertexIndex) :
    ((tree.accept ctx store s).at? v).Pairwise (· < ·) := by
  rw [at?_accept]
  split
  · apply List.pairwise_append.2
    refine ⟨(H.increasing _).filter _, List.pairwise_singleton _ _, ?_⟩
    intro i hi j hj
    rw [List.mem_singleton.1 hj]
    exact H.lt_size (List.mem_filter.1 hi).1
  · exact H.increasing v

theorem accept_antichain (H : Labelled ctx rule tree store) (hs : store.HoldsParent s)
    (hkept : tree.rejects ctx store s = false) (hi : i ∈ (tree.accept ctx store s).at? v)
    (hj : j ∈ (tree.accept ctx store s).at? v) (hij : i ≠ j)
    (ha : (store.push s).get? i = some a) (hb : (store.push s).get? j = some b) :
    ctx.dominates rule (store.push s) a b = false := by
  have hold : ∀ {i t}, i ∈ tree.at? v → (store.push s).get? i = some t →
      store.get? i = some t := fun hi => StateStore.get?_of_push (H.lt_size hi)
  rcases mem_accept_at?.1 hi with ⟨hi, -⟩ | ⟨rfl, rfl⟩
  · have ha := hold hi ha
    rw [Context.dominates_push (H.parents ha)]
    rcases mem_accept_at?.1 hj with ⟨hj, -⟩ | ⟨rfl, rfl⟩
    · exact H.antichain hi hj hij ha (hold hj hb)
    · -- An older label that dominates the new one would have kept it out.
      cases StateStore.get?_push_size.symm.trans hb
      rw [← H.goesBy]
      exact not_dominates_of_not_rejects hkept hi ha
  · cases StateStore.get?_push_size.symm.trans ha
    rw [Context.dominates_push hs]
    rcases mem_accept_at?.1 hj with ⟨hj, hsafe⟩ | ⟨-, rfl⟩
    · -- An older label that the new one dominates is beaten.
      refine Bool.eq_false_iff.2 fun hdom => hsafe rfl ?_
      rw [← H.goesBy] at hdom
      exact mem_beaten.2 ⟨hj, b, hold hj hb, hdom⟩
    · exact absurd rfl hij

theorem accept (H : Labelled ctx rule tree store) (hs : store.HoldsParent s)
    (hkept : tree.rejects ctx store s = false) :
    Labelled ctx rule (tree.accept ctx store s) (store.push s) where
  toKept := H.toKept.accept
  parents ha := by
    rcases StateStore.get?_push_cases ha with hold | ⟨-, rfl⟩
    · exact (H.parents hold).push
    · exact hs.push
  listed := H.accept_listed
  increasing := H.accept_increasing
  antichain := H.accept_antichain hs hkept

theorem empty : Labelled ctx rule (.empty rule) .empty where
  toKept := .empty
  parents ha := by simp [StateStore.empty, StateStore.get?] at ha
  listed ha := by simp [StateStore.empty, StateStore.get?] at ha
  increasing _ := List.Pairwise.nil
  antichain hi := absurd hi List.not_mem_nil

end Labelled

theorem offer_eq (kept : Tree × StateStore R) (s : State R) : offer ctx kept s =
    if kept.1.rejects ctx kept.2 s then kept
    else (kept.1.accept ctx kept.2 s, kept.2.push s) := by
  unfold offer
  rw [add_eq]
  split <;> rfl

theorem Offered.labelled {states : List (State R)} {kept : Tree × StateStore R}
    (H : Offered ctx rule states kept) : Labelled ctx rule kept.1 kept.2 := by
  induction H with
  | nil => exact .empty
  | snoc _ hs ih =>
    rw [offer_eq]
    split
    · exact ih
    · rename_i hkept
      exact ih.accept hs (Bool.not_eq_true _ ▸ hkept)

/-- Only what was offered is stored. -/
theorem Offered.mem_of_get? {states : List (State R)} {kept : Tree × StateStore R}
    (H : Offered ctx rule states kept) (ha : kept.2.get? i = some a) : a ∈ states := by
  induction H with
  | nil => simp [StateStore.empty, StateStore.get?] at ha
  | snoc _ _ ih =>
    rw [offer_eq] at ha
    split at ha
    · exact List.mem_append_left _ (ih ha)
    · rcases StateStore.get?_push_cases ha with hold | ⟨-, rfl⟩
      · exact List.mem_append_left _ (ih hold)
      · exact List.mem_append_right _ List.mem_cons_self

/-! ## All labels together -/

/-- A state is a label nowhere but at its vertex. -/
theorem Labelled.vertex_unique (H : Labelled ctx rule tree store) {w : VertexIndex}
    (hv : i ∈ tree.at? v) (hw : i ∈ tree.at? w) : v = w := by
  obtain ⟨a, ha, rfl⟩ := H.stored hv
  exact H.vertex_eq hw ha

omit [Quantity R] [Geodesy R] in
theorem at?_of_mem_entries {labels : List StateId} (h : (v, labels) ∈ tree.labels.entries) :
    tree.at? v = labels := by
  unfold at?
  rw [Table.get?_eq_some_iff.2 h]
  rfl

theorem Labelled.nodup (H : Labelled ctx rule tree store) :
    tree.labels.values.flatten.Nodup := by
  rw [List.nodup_flatten]
  constructor
  · intro labels hlabels
    obtain ⟨⟨v, labels⟩, hentry, rfl⟩ := List.mem_map.1 hlabels
    rw [← at?_of_mem_entries hentry]
    exact (H.increasing v).imp Nat.ne_of_lt
  · -- Two lists belong to two vertices.
    have hkeys : tree.labels.entries.Pairwise fun p q => p.1 ≠ q.1 :=
      List.pairwise_map.1 tree.labels.nodup
    refine List.pairwise_map.2 (hkeys.imp_of_mem fun {p q} hp hq hne i hi hi' => hne ?_)
    rw [← at?_of_mem_entries hp] at hi
    rw [← at?_of_mem_entries hq] at hi'
    exact H.vertex_unique hi hi'

theorem Labelled.listedOrPruned (H : Labelled ctx rule tree store) (hi : i < store.size) :
    (∃! v, i ∈ tree.at? v) ∧ tree.isPruned i = false ∨
      (∀ v, i ∉ tree.at? v) ∧ tree.isPruned i = true := by
  obtain ⟨a, ha⟩ := StateStore.get?_isSome_of_lt hi
  cases hpruned : tree.isPruned i with
  | false =>
    have hlisted := H.listed ha hpruned
    exact .inl ⟨⟨a.vertex, hlisted, fun _ hv => H.vertex_unique hv hlisted⟩, rfl⟩
  | true =>
    refine .inr ⟨fun v hv => ?_, rfl⟩
    rw [H.counts hv] at hpruned
    cases hpruned

/-- However states are offered to a tree, its labels are in order. -/
theorem wellLabelled_of_offered {states : List (State R)} {kept : Tree × StateStore R}
    (H : Offered ctx rule states kept) : WellLabelled ctx rule kept.1 kept.2 where
  nodup := H.labelled.nodup
  increasing := H.labelled.increasing
  atVertex _ _ := H.labelled.stored
  listedOrPruned _ := H.labelled.listedOrPruned
  antichain _ _ hi _ hj hij _ ha _ hb := H.labelled.antichain hi hj hij ha hb

/-- The link beats the street that came first. -/
theorem wellLabelled_at_corner :
    let byStreet : State ℚ := ⟨1, 1504, 752, 1000, some 0, some ⟨0, .street⟩, some .walk, .initial⟩
    let byLink : State ℚ := ⟨1, 1354, 677, 900, some 0, some ⟨2, .other⟩, some .walk, .initial⟩
    let kept := [.initial 0, byStreet, byLink].foldl (offer Corners.there) (.empty .pareto, .empty)
    kept.1.isPruned 1 = true ∧ WellLabelled Corners.there .pareto kept.1 kept.2 := by
  intro byStreet byLink kept
  have hfirst : Offered Corners.there .pareto [.initial 0] _ := .snoc .nil (fun _ h => nomatch h)
  have hsecond := hfirst.snoc (s := byStreet) (by rintro p ⟨⟩; decide)
  have hthird := hsecond.snoc (s := byLink) (by rintro p ⟨⟩; decide)
  exact ⟨by decide +kernel, wellLabelled_of_offered hthird⟩

end Tree

end TripPlanner
