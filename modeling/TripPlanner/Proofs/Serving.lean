import TripPlanner.Proofs.Exact
import TripPlanner.Proofs.Run

/-!
# The order of service

What waits is sorted by what it has cost and is estimated to cost still (`Search.Reached.served`).
So the state that a search takes next is no dearer than any other one that waits and counts
(`Search.Served.priority_le`). If no edge lowers the sum, nothing is dearer than what is served
after it (`Search.Reached.waitsFrom_settle`).
-/

namespace TripPlanner

variable {R : Type} [Field R] [LinearOrder R] [IsStrictOrderedRing R] [FloorRing R]

namespace Queue

variable {w x : Waiting R} {ws : List (Waiting R)}

theorem priority_le_of_isBefore (h : w.isBefore x = true) : w.priority ≤ x.priority :=
  Quantity.ranksBefore_iff.1 (Bool.and_eq_true_iff.1 h).1

theorem priority_le_of_not_isBefore (h : w.isBefore x = false) : x.priority ≤ w.priority := by
  rcases le_total w.priority x.priority with hle | hle
  · -- Of equal priorities the older one comes first.
    have hback : (!Quantity.ranksBefore x.priority w.priority || decide (w.id ≤ x.id)) = false := by
      rwa [Waiting.isBefore, Quantity.ranksBefore_iff.2 hle, Bool.true_and] at h
    rw [Bool.or_eq_false_iff, Bool.not_eq_false'] at hback
    exact Quantity.ranksBefore_iff.1 hback.1
  · exact hle

/-- Nothing is served before something of lower priority. -/
def Sorted (ws : List (Waiting R)) : Prop := ws.Pairwise fun w x => w.priority ≤ x.priority

theorem mem_insertOrdered : x ∈ insertOrdered w ws ↔ x = w ∨ x ∈ ws :=
  insertOrdered_perm.mem_iff.trans List.mem_cons

theorem Sorted.insertOrdered (H : Sorted ws) : Sorted (insertOrdered w ws) := by
  induction ws with
  | nil => exact List.pairwise_singleton _ _
  | cons first rest ih =>
    obtain ⟨hfirst, hrest⟩ := List.pairwise_cons.1 H
    unfold Queue.insertOrdered
    split
    · rename_i hbefore
      have hle := priority_le_of_isBefore hbefore
      refine List.pairwise_cons.2 ⟨fun x hx => ?_, H⟩
      rcases List.mem_cons.1 hx with rfl | hx
      · exact hle
      · exact hle.trans (hfirst x hx)
    · rename_i hafter
      have hle := priority_le_of_not_isBefore (Bool.not_eq_true _ ▸ hafter)
      refine List.pairwise_cons.2 ⟨fun x hx => ?_, ih hrest⟩
      rcases mem_insertOrdered.1 hx with rfl | hx
      · exact hle
      · exact hfirst x hx

end Queue

namespace Context

variable [Geodesy R] {ctx : Context R}

theorem remainingWeight_of_trivial (h : ctx.request.heuristic = .trivial) {v : VertexIndex} :
    ctx.remainingWeight v = 0 := by
  rw [remainingWeight, h]

/-- No edge lowers what was spent and is estimated to be spent still. -/
def NeverLowersPriority (ctx : Context R) : Prop :=
  ∀ {a e b}, ctx.Reachable a → ctx.Follows a e b →
    a.weight + ctx.remainingWeight a.vertex ≤ b.weight + ctx.remainingWeight b.vertex

theorem neverLowersPriority_of_trivial (htrivial : ctx.request.heuristic = .trivial)
    (hweights : ∀ {a e b}, ctx.Reachable a → ctx.Follows a e b → a.weight ≤ b.weight) :
    ctx.NeverLowersPriority := by
  intro a e b ha h
  rw [remainingWeight_of_trivial htrivial, remainingWeight_of_trivial htrivial, add_zero, add_zero]
  exact hweights ha h

/-- No edge lowers the sum, and whoever changes over a timed transfer or boards is estimated to be
as far from the destination as before. -/
structure EstimatesEvenly (ctx : Context R) : Prop where
  rises : ctx.NeverLowersPriority
  level : ∀ {e edge}, ctx.graph.edge? e = some edge → ctx.graph.isBlocked edge = false →
    edge.edgeClass = .timedTransfer ∨ edge.edgeClass = .board →
      ctx.remainingWeight edge.source = ctx.remainingWeight edge.target

theorem estimatesEvenly_of_trivial (htrivial : ctx.request.heuristic = .trivial)
    (hweights : ∀ {a e b}, ctx.Reachable a → ctx.Follows a e b → a.weight ≤ b.weight) :
    ctx.EstimatesEvenly where
  rises := neverLowersPriority_of_trivial htrivial hweights
  level _ _ _ := by rw [remainingWeight_of_trivial htrivial, remainingWeight_of_trivial htrivial]

end Context

namespace Search

variable [Geodesy R] {ctx : Context R} {search rest : Search R} {s t : State R} {id : StateId}
  {w : Waiting R} {dropped : List (Waiting R)} {bound : R}

/-- What waits is sorted, and in the place that its weight and the estimate give it. -/
structure Served (ctx : Context R) (search : Search R) : Prop where
  sorted : Queue.Sorted search.queue.waiting
  priced : ∀ w ∈ search.queue.waiting, ∃ s, search.store.get? w.id = some s ∧
    w.priority = s.weight + ctx.remainingWeight s.vertex

theorem Served.accept (H : search.Served ctx) : (search.accept ctx s).Served ctx where
  sorted := H.sorted.insertOrdered
  priced w hw := by
    rcases Queue.mem_insertOrdered.1 hw with rfl | hw
    · exact ⟨s, StateStore.get?_push_size, rfl⟩
    · obtain ⟨t, ht, hpriority⟩ := H.priced w hw
      exact ⟨t, StateStore.get?_push_of_get? ht, hpriority⟩

theorem Served.next? (H : search.Served ctx) (h : search.next? = some (id, rest)) :
    rest.Served ctx := by
  obtain ⟨dropped, w, behind, hwaiting, -, -, -, rfl⟩ := next?_eq_some_iff.1 h
  have hsub : behind.Sublist search.queue.waiting := by
    rw [hwaiting]
    exact (List.sublist_cons_self w behind).trans (List.sublist_append_right _ _)
  exact ⟨H.sorted.sublist hsub, fun x hx => H.priced x (hsub.subset hx)⟩

theorem Served.settle (H : search.Served ctx) : (search.settle ctx id).Served ctx := by
  cases hs : search.store.get? id with
  | none => simpa [Search.settle, hs] using H
  | some s =>
    rw [settle_eq hs]
    split
    · exact ⟨H.sorted, H.priced⟩
    · exact expand_keeps (P := Served ctx) (fun _ _ h => ⟨h.sorted, h.priced⟩)
        (fun _ _ _ _ _ h => h.accept) ⟨H.sorted, H.priced⟩

theorem Reached.served (H : search.Reached ctx) : search.Served ctx := by
  refine H.induct ?_ fun _ hserved hnext _ _ _ => (hserved.next? hnext).settle
  rw [start_eq]
  exact Served.accept ⟨List.Pairwise.nil, fun w hw => absurd hw List.not_mem_nil⟩

/-- The next state is served before all others that wait and count. -/
theorem Served.priority_le (H : search.Served ctx) (h : search.next? = some (id, rest))
    (hs : search.store.get? id = some s) (hw : w ∈ search.queue.waiting)
    (hcounts : search.tree.isPruned w.id = false) :
    s.weight + ctx.remainingWeight s.vertex ≤ w.priority := by
  obtain ⟨dropped, first, behind, hwaiting, hdropped, -, rfl, -⟩ := next?_eq_some_iff.1 h
  have hsorted := H.sorted
  have hmem : first ∈ search.queue.waiting := by simp [hwaiting]
  obtain ⟨t, ht, hpriority⟩ := H.priced first hmem
  cases hs.symm.trans ht
  rw [← hpriority]
  rw [hwaiting] at hw hsorted
  rcases List.mem_append.1 hw with hw | hw
  · rw [hdropped w hw] at hcounts
    cases hcounts
  · rcases List.mem_cons.1 hw with rfl | hw
    · exact le_rfl
    · exact (List.pairwise_cons.1 (List.pairwise_append.1 hsorted).2.1).1 w hw

/-- Nothing waits that has a lower priority. -/
def WaitsFrom (search : Search R) (bound : R) : Prop :=
  ∀ w ∈ search.queue.waiting, bound ≤ w.priority

theorem WaitsFrom.accept (H : search.WaitsFrom bound)
    (h : bound ≤ s.weight + ctx.remainingWeight s.vertex) :
    (search.accept ctx s).WaitsFrom bound := by
  intro w hw
  rcases Queue.mem_insertOrdered.1 hw with rfl | hw
  · exact h
  · exact H w hw

theorem WaitsFrom.settle (H : rest.WaitsFrom bound) (hprices : ctx.NeverLowersPriority)
    (hrest : rest.Consistent ctx) (hs : rest.store.get? id = some s)
    (h : bound ≤ s.weight + ctx.remainingWeight s.vertex) :
    (rest.settle ctx id).WaitsFrom bound := by
  have ha : ctx.Reachable s := hrest.grown.reachable hs
  rw [settle_eq hs]
  split
  · exact H
  · apply expand_keeps (P := fun search => search.WaitsFrom bound)
    · intro search event hsearch
      exact hsearch
    · intro search e next hnext _ hsearch
      exact hsearch.accept (h.trans (hprices ha (.of_mem_successors hnext)))
    · exact H

/-- Serving the first state that waits leaves nothing to wait below what waited from there on. -/
theorem Reached.waitsFrom_settle (H : search.Reached ctx) (hprices : ctx.NeverLowersPriority)
    (hnext : search.next? = some (w.id, rest))
    (hwaiting : search.queue.waiting = dropped ++ w :: rest.queue.waiting)
    (hbound : ∀ x ∈ w :: rest.queue.waiting, bound ≤ x.priority) :
    (rest.settle ctx w.id).WaitsFrom bound := by
  obtain ⟨hbound, hbehind⟩ := List.forall_mem_cons.1 hbound
  have hmem : w ∈ search.queue.waiting := by simp [hwaiting]
  obtain ⟨s, hs, hpriority⟩ := H.served.priced w hmem
  obtain ⟨hrest, -⟩ := H.consistent.next? hnext
  rw [← (next?_rest hnext).1] at hs
  rw [hpriority] at hbound
  exact WaitsFrom.settle hbehind hprices hrest hs hbound

end Search

end TripPlanner
