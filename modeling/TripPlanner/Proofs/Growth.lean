import Mathlib.Data.List.TakeWhile
import TripPlanner.Proofs.Step

/-!
# How a search grows

What offering a state does to the store, the tree and the queue. A state that is not rejected is
accepted (`Search.accept`) under the next number. Everything that an expansion does is a sequence
of such offers (`Search.expand_induct`).
-/

namespace TripPlanner

namespace StateStore

variable {R : Type} {store : StateStore R} {s t : State R} {id : StateId}

@[simp] theorem size_push : (store.push s).size = store.size + 1 := Array.size_push s

theorem get?_push : (store.push s).get? id = if id = store.size then some s else store.get? id := by
  unfold push get? size
  rw [Array.getElem?_push]

@[simp] theorem get?_push_size : (store.push s).get? store.size = some s := by simp [get?_push]

theorem lt_size_of_get? (h : store.get? id = some s) : id < store.size := by
  unfold get? at h
  exact (Array.getElem?_eq_some_iff.1 h).1

theorem get?_isSome_of_lt (h : id < store.size) : ∃ s, store.get? id = some s :=
  ⟨_, Array.getElem?_eq_getElem h⟩

theorem get?_push_of_get? (h : store.get? id = some s) : (store.push t).get? id = some s := by
  rw [get?_push, if_neg (Nat.ne_of_lt (lt_size_of_get? h)), h]

/-- A state of the grown store is an old one or the new one. -/
theorem get?_push_cases (h : (store.push t).get? id = some s) :
    store.get? id = some s ∨ id = store.size ∧ s = t := by
  rw [get?_push] at h
  split at h
  · exact .inr ⟨‹_›, (Option.some.inj h).symm⟩
  · exact .inl h

theorem get?_of_push (hid : id < store.size) (h : (store.push t).get? id = some s) :
    store.get? id = some s := by
  rwa [get?_push, if_neg (Nat.ne_of_lt hid)] at h

/-- The state that a state came from is stored, if there is one. -/
def HoldsParent (store : StateStore R) (s : State R) : Prop := ∀ p ∈ s.parent, p < store.size

theorem HoldsParent.push (H : store.HoldsParent s) : (store.push t).HoldsParent s := fun p hp => by
  rw [size_push]
  exact Nat.lt_succ_of_lt (H p hp)

theorem HoldsParent.parent?_push (H : store.HoldsParent s) :
    (store.push t).parent? s = store.parent? s := by
  unfold parent?
  cases hp : s.parent with
  | none => rfl
  | some p =>
    obtain ⟨a, ha⟩ := get?_isSome_of_lt (H p hp)
    rw [Option.bind_some, Option.bind_some, ha, get?_push_of_get? ha]

end StateStore

/-- Dominance does not change when the store grows. -/
theorem Context.dominates_push {R : Type} [Quantity R] [Geodesy R] {ctx : Context R}
    {rule : DominanceRule} {store : StateStore R} {a b s : State R} (H : store.HoldsParent a) :
    ctx.dominates rule (store.push s) a b = ctx.dominates rule store a b := by
  simp only [dominates, boardedAfterChange, H.parent?_push]

namespace Queue

variable {R : Type} [Quantity R] {w : Waiting R} {ws : List (Waiting R)}

theorem insertOrdered_perm : (insertOrdered w ws).Perm (w :: ws) := by
  induction ws with
  | nil => exact .refl _
  | cons first rest ih =>
    unfold insertOrdered
    split
    · exact .refl _
    · exact (ih.cons first).trans (.swap w first rest)

/-- The numbers that wait. -/
def ids (queue : Queue R) : List StateId := queue.waiting.map Waiting.id

theorem ids_push_perm {queue : Queue R} {priority : R} {id : StateId} :
    (queue.push priority id).ids.Perm (id :: queue.ids) :=
  insertOrdered_perm.map Waiting.id

theorem mem_ids_push {queue : Queue R} {priority : R} {id i : StateId} :
    i ∈ (queue.push priority id).ids ↔ i = id ∨ i ∈ queue.ids :=
  ids_push_perm.mem_iff.trans List.mem_cons

end Queue

namespace Tree

variable {R : Type} [Quantity R] [Geodesy R] {tree : Tree} {ctx : Context R} {store : StateStore R}
  {s : State R} {id : StateId}

theorem mem_beaten : id ∈ tree.beaten ctx store s ↔ id ∈ tree.at? s.vertex ∧
    ∃ other, store.get? id = some other ∧ ctx.dominates tree.rule store s other = true := by
  simp [beaten, Option.any_eq_true]

theorem rejects_iff : tree.rejects ctx store s = true ↔ ∃ id ∈ tree.at? s.vertex,
    ∃ other, store.get? id = some other ∧ ctx.dominates tree.rule store other s = true := by
  simp [rejects, Option.any_eq_true]

/-- No state that counts dominates one that is not rejected. -/
theorem not_dominates_of_not_rejects {a : State R} (hkept : tree.rejects ctx store s = false)
    (hi : id ∈ tree.at? s.vertex) (ha : store.get? id = some a) :
    ctx.dominates tree.rule store a s = false := by
  refine Bool.eq_false_iff.2 fun hdom => ?_
  rw [rejects_iff.2 ⟨id, hi, a, ha, hdom⟩] at hkept
  cases hkept

/-- The tree with a new state, those that it makes needless pruned. -/
def accept (tree : Tree) (ctx : Context R) (store : StateStore R) (s : State R) : Tree :=
  { tree with
    labels := tree.labels.insert s.vertex
      ((tree.at? s.vertex).filter (· ∉ tree.beaten ctx store s) ++ [store.size])
    pruned := tree.pruned ++ tree.beaten ctx store s }

theorem add_eq : tree.add ctx store s =
    if tree.rejects ctx store s then none
    else some (store.size, tree.accept ctx store s, store.push s) := rfl

theorem at?_accept (v : VertexIndex) : (tree.accept ctx store s).at? v =
    if v = s.vertex then
      (tree.at? s.vertex).filter (· ∉ tree.beaten ctx store s) ++ [store.size]
    else tree.at? v := by
  unfold accept at?
  rw [Table.get?_insert]
  split <;> rfl

theorem mem_accept_at? {v : VertexIndex} : id ∈ (tree.accept ctx store s).at? v ↔
    id ∈ tree.at? v ∧ (v = s.vertex → id ∉ tree.beaten ctx store s) ∨
      v = s.vertex ∧ id = store.size := by
  rw [at?_accept]
  by_cases hv : v = s.vertex
  · subst hv
    simp
  · simp [hv]

theorem accept_isPruned : (tree.accept ctx store s).isPruned id = true ↔
    tree.isPruned id = true ∨ id ∈ tree.beaten ctx store s := by
  simp [accept, isPruned]

theorem accept_counts : (tree.accept ctx store s).isPruned id = false ↔
    tree.isPruned id = false ∧ id ∉ tree.beaten ctx store s := by
  rw [← Bool.not_eq_true, accept_isPruned, not_or, Bool.not_eq_true]

omit [Quantity R] [Geodesy R] in
/-- The tree goes by the rule, and holds stored states at their vertices that are not pruned. -/
structure Kept (tree : Tree) (rule : DominanceRule) (store : StateStore R) : Prop where
  goesBy : tree.rule = rule
  stored : ∀ {v i}, i ∈ tree.at? v → ∃ s, store.get? i = some s ∧ s.vertex = v
  counts : ∀ {v i}, i ∈ tree.at? v → tree.isPruned i = false
  pruned : ∀ {i}, tree.isPruned i = true → i < store.size

namespace Kept

variable {rule : DominanceRule} {v : VertexIndex} {a : State R}

omit [Quantity R] [Geodesy R] in
theorem empty : (Tree.empty rule).Kept rule (StateStore.empty : StateStore R) where
  goesBy := rfl
  stored hi := absurd hi List.not_mem_nil
  counts hi := absurd hi List.not_mem_nil
  pruned hpruned := by simp [Tree.empty, isPruned] at hpruned

omit [Quantity R] [Geodesy R] in
theorem lt_size (H : tree.Kept rule store) (hi : id ∈ tree.at? v) : id < store.size := by
  obtain ⟨s, hs, -⟩ := H.stored hi
  exact StateStore.lt_size_of_get? hs

omit [Quantity R] [Geodesy R] in
theorem vertex_eq (H : tree.Kept rule store) (hi : id ∈ tree.at? v)
    (ha : store.get? id = some a) : a.vertex = v := by
  obtain ⟨b, hb, hv⟩ := H.stored hi
  cases ha.symm.trans hb
  exact hv

theorem accept (H : tree.Kept rule store) :
    (tree.accept ctx store s).Kept rule (store.push s) where
  goesBy := H.goesBy
  stored hi := by
    rcases mem_accept_at?.1 hi with ⟨hold, -⟩ | ⟨rfl, rfl⟩
    · obtain ⟨a, ha, hv⟩ := H.stored hold
      exact ⟨a, StateStore.get?_push_of_get? ha, hv⟩
    · exact ⟨s, StateStore.get?_push_size, rfl⟩
  counts {v i} hi := by
    refine Bool.eq_false_iff.2 fun hpruned => ?_
    rcases mem_accept_at?.1 hi with ⟨hold, hkept⟩ | ⟨-, rfl⟩ <;>
      rcases accept_isPruned.1 hpruned with hp | hbeaten
    · rw [H.counts hold] at hp
      cases hp
    · -- Only states at the vertex of the new one are beaten.
      obtain ⟨a, ha, rfl⟩ := H.stored hold
      exact hkept (H.vertex_eq (mem_beaten.1 hbeaten).1 ha) hbeaten
    · exact Nat.lt_irrefl _ (H.pruned hp)
    · exact Nat.lt_irrefl _ (H.lt_size (mem_beaten.1 hbeaten).1)
  pruned hpruned := by
    rw [StateStore.size_push]
    apply Nat.lt_succ_of_lt
    rcases accept_isPruned.1 hpruned with hp | hbeaten
    · exact H.pruned hp
    · exact H.lt_size (mem_beaten.1 hbeaten).1

end Kept

end Tree

namespace Search

variable {R : Type} [Quantity R] [Geodesy R]

/-- The search with one more state, which waits. -/
def accept (search : Search R) (ctx : Context R) (s : State R) : Search R :=
  { search with
    store := search.store.push s
    tree := search.tree.accept ctx search.store s
    queue := search.queue.push (s.weight + ctx.remainingWeight s.vertex) search.store.size }

variable {search rest : Search R} {ctx : Context R} {s : State R} {id : StateId}

theorem offer_eq : search.offer ctx s =
    if search.tree.rejects ctx search.store s then none else some (search.accept ctx s) := by
  unfold offer
  rw [Tree.add_eq]
  split <;> rfl

theorem relax_eq : search.relax ctx s =
    if search.tree.rejects ctx search.store s then search
    else (search.accept ctx s).note (.enqueued s) := by
  unfold relax
  rw [offer_eq]
  split <;> simp_all

theorem start_eq : start ctx = (empty ctx.request.dominance).accept ctx (.initial ctx.origin) := by
  simp only [start, offer_eq]
  rfl

theorem start_store : (start ctx).store = StateStore.empty.push (.initial ctx.origin) := by
  rw [start_eq]
  rfl

theorem start_ids : (start ctx).queue.ids = [0] := by
  rw [start_eq]
  rfl

theorem start_found : (start ctx).found = [] := by
  rw [start_eq]
  rfl

theorem get?_start_iff : (start ctx).store.get? id = some s ↔ id = 0 ∧ s = .initial ctx.origin := by
  rw [start_store, StateStore.get?_push]
  by_cases hid : id = 0 <;> simp [hid, StateStore.empty, StateStore.size, StateStore.get?, eq_comm]

omit [Quantity R] [Geodesy R] in
/-- Notes the states that an expansion has produced. -/
def noteAll (search : Search R) (produced : List (EdgeIndex × State R)) : Search R :=
  produced.foldl (fun search (e, next) => search.note (.traversed e next)) search

/-- Offers the states that an expansion has produced. -/
def relaxAll (ctx : Context R) (search : Search R) (produced : List (EdgeIndex × State R)) :
    Search R :=
  produced.foldl (fun search (_, next) => search.relax ctx next) search

theorem expand_eq : search.expand ctx id s =
    relaxAll ctx (search.noteAll (ctx.successors id s)) (ctx.successors id s) := rfl

omit [Quantity R] [Geodesy R] in
theorem noteAll_keeps {P : Search R → Prop}
    (hnote : ∀ search event, P search → P (note search event))
    {produced : List (EdgeIndex × State R)} (h : P search) : P (search.noteAll produced) := by
  induction produced generalizing search with
  | nil => exact h
  | cons p produced ih => exact ih (hnote _ _ h)

/-- An expansion notes events and offers the successors one after the other. `P done` speaks of the
search once those in `done` were offered. -/
theorem expand_induct {P : List (EdgeIndex × State R) → Search R → Prop}
    (hnote : ∀ done search event, P done search → P done (note search event))
    (hreject : ∀ done search p, p ∈ ctx.successors id s →
      search.tree.rejects ctx search.store p.2 = true → P done search → P (done ++ [p]) search)
    (haccept : ∀ done search p, p ∈ ctx.successors id s →
      search.tree.rejects ctx search.store p.2 = false → P done search →
        P (done ++ [p]) (search.accept ctx p.2))
    (h : P [] search) : P (ctx.successors id s) (search.expand ctx id s) := by
  have hrelax : ∀ (produced done : List (EdgeIndex × State R)) (search : Search R),
      (∀ p ∈ produced, p ∈ ctx.successors id s) → P done search →
        P (done ++ produced) (search.relaxAll ctx produced) := by
    intro produced
    induction produced with
    | nil =>
      intro done search _ h
      rwa [List.append_nil]
    | cons p produced ih =>
      intro done search hsub h
      rw [List.append_cons]
      refine ih (done ++ [p]) _ (fun q hq => hsub q (List.mem_cons_of_mem _ hq)) ?_
      have hp := hsub p List.mem_cons_self
      simp only [relax_eq]
      split
      · rename_i hrejected
        exact hreject _ _ _ hp hrejected h
      · rename_i hkept
        exact hnote _ _ _ (haccept _ _ _ hp (Bool.not_eq_true _ ▸ hkept) h)
  rw [expand_eq]
  exact hrelax _ [] _ (fun _ hp => hp) (noteAll_keeps (hnote []) h)

/-- What noting events and accepting successors keep up, an expansion keeps up. -/
theorem expand_keeps {P : Search R → Prop}
    (hnote : ∀ search event, P search → P (note search event))
    (haccept : ∀ search e next, (e, next) ∈ ctx.successors id s →
      search.tree.rejects ctx search.store next = false → P search → P (search.accept ctx next))
    (h : P search) : P (search.expand ctx id s) :=
  expand_induct (P := fun _ => P) (fun _ => hnote) (fun _ _ _ _ _ h => h)
    (fun _ search p => haccept search p.1 p.2) h

/-- A state taken off the queue is found or expanded. -/
theorem settle_eq (hs : search.store.get? id = some s) : search.settle ctx id =
    if ctx.isFinal s then { search.note (.visited s) with found := search.found ++ [id] }
    else (search.note (.visited s)).expand ctx id s := by
  unfold settle
  rw [hs]
  rfl

omit [Quantity R] [Geodesy R] in
/-- The next state is the first one that is not pruned; what is in front of it is dropped. -/
theorem next?_eq_some_iff : search.next? = some (id, rest) ↔
    ∃ dropped w behind, search.queue.waiting = dropped ++ w :: behind ∧
      (∀ x ∈ dropped, search.tree.isPruned x.id = true) ∧ search.tree.isPruned w.id = false ∧
      w.id = id ∧ rest = { search with queue := ⟨behind⟩ } := by
  unfold next? Queue.next?
  generalize search.queue.waiting = waiting
  induction waiting with
  | nil => simp
  | cons x waiting ih =>
    rw [List.dropWhile_cons]
    cases hx : search.tree.isPruned x.id with
    | true =>
      simp only [if_true, ih]
      constructor
      · rintro ⟨dropped, w, behind, rfl, hd, hw, hid, hrest⟩
        refine ⟨x :: dropped, w, behind, rfl, ?_, hw, hid, hrest⟩
        exact List.forall_mem_cons.2 ⟨hx, hd⟩
      · rintro ⟨dropped, w, behind, heq, hd, hw, hid, hrest⟩
        cases dropped with
        | nil =>
          cases heq
          simp [hx] at hw
        | cons y dropped =>
          obtain ⟨rfl, rfl⟩ := List.cons_eq_cons.1 heq
          exact ⟨dropped, w, behind, rfl, fun z hz => hd z (List.mem_cons_of_mem _ hz), hw, hid,
            hrest⟩
    | false =>
      simp only [Bool.false_eq_true, if_false, Option.map_some, Option.some.injEq,
        Prod.mk.injEq]
      constructor
      · rintro ⟨rfl, rfl⟩
        exact ⟨[], x, waiting, rfl, by simp, hx, rfl, rfl⟩
      · rintro ⟨dropped, w, behind, heq, hd, hw, hid, hrest⟩
        cases dropped with
        | nil =>
          cases heq
          exact ⟨hid, hrest.symm⟩
        | cons y dropped =>
          obtain ⟨rfl, -⟩ := List.cons_eq_cons.1 heq
          simp [hd x List.mem_cons_self] at hx

omit [Quantity R] [Geodesy R] in
/-- Taking a state off the queue changes nothing else. -/
theorem next?_rest (h : search.next? = some (id, rest)) :
    rest.store = search.store ∧ rest.tree = search.tree ∧ rest.found = search.found := by
  obtain ⟨_, _, _, _, _, _, _, rfl⟩ := next?_eq_some_iff.1 h
  exact ⟨rfl, rfl, rfl⟩

omit [Quantity R] [Geodesy R] in
theorem next?_eq_none_iff :
    search.next? = none ↔ ∀ i ∈ search.queue.ids, search.tree.isPruned i = true := by
  have hdrop : search.queue.waiting.dropWhile (fun w => search.tree.isPruned w.id) = [] ↔
      ∀ i ∈ search.queue.ids, search.tree.isPruned i = true := by
    simp [Queue.ids, List.dropWhile_eq_nil_iff]
  rw [← hdrop]
  unfold next? Queue.next?
  cases search.queue.waiting.dropWhile fun w => search.tree.isPruned w.id <;> simp

end Search

end TripPlanner
