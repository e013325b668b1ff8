import TripPlanner.Proofs.Moments
import TripPlanner.Proofs.Serving

/-!
# Outlines

How a search goes on depends on what waits and on what counts, but not on the numbers of these
states. The outline of a search is what is left of it without numbers: the arrivals that count and
can be compared, and those that wait. It goes on by itself (`Outline.step?`), as the search does
(`Outline.Depicts.advance`). Only the arrivals in a region need to be known, as long as the search
does not leave it.
-/

namespace TripPlanner

/-! ## Arrivals -/

/-- The state without the number of the one that it followed. -/
def State.unlinked {R : Type} (s : State R) : State R := { s with parent := none }

/-- All that a search reads of a state: what it is itself, and whether the one that it followed came
by a timed transfer. -/
structure Arrival (R : Type) where
  state : State R
  afterChange : Bool
  deriving DecidableEq

namespace Arrival

variable {R : Type}

/-- The state `t` as one that follows `s`. -/
def following (s t : State R) : Arrival R := ⟨t.unlinked, s.arrivedVia .timedTransfer⟩

/-- Dominance leaves alone what came by a timed transfer. -/
def isComparable (a : Arrival R) : Bool := !a.state.arrivedVia .timedTransfer

variable [Field R] [LinearOrder R] [IsStrictOrderedRing R] [FloorRing R]

/-- The arrivals that follow. -/
def next (ctx : Context R) (a : Arrival R) : List (Arrival R) :=
  (ctx.successors 0 a.state).map fun p => following a.state p.2

variable [Geodesy R]

def priority (ctx : Context R) (a : Arrival R) : R :=
  a.state.weight + ctx.remainingWeight a.state.vertex

/-- Whether `a` makes `b` needless. -/
def beats (ctx : Context R) (a b : Arrival R) : Bool :=
  a.state.vertex = b.state.vertex && onSameSide a.state b.state &&
    (a.state.arrivedVia .board && b.state.arrivedVia .board && a.afterChange ||
      (a.state.plane = b.state.plane && !ctx.futureDiffers a.state b.state &&
        ctx.request.dominance.noWorse a.state b.state))

theorem vertex_of_beats {ctx : Context R} {a b : Arrival R} (h : a.beats ctx b = true) :
    a.state.vertex = b.state.vertex ∧ onSameSide a.state b.state = true := by
  simp only [beats, Bool.and_eq_true, decide_eq_true_eq] at h
  exact h.1

end Arrival

namespace StateStore

variable {R : Type} {store : StateStore R} {s t : State R} {id : StateId}

/-- The state as an arrival. -/
def arrival (store : StateStore R) (s : State R) : Arrival R :=
  ⟨s.unlinked, (store.parent? s).any fun parent => parent.arrivedVia .timedTransfer⟩

theorem HoldsParent.arrival_push (H : store.HoldsParent s) :
    (store.push t).arrival s = store.arrival s := by
  unfold arrival
  rw [H.parent?_push]

theorem arrival_eq_following (hs : store.get? id = some s) (ht : t.parent = some id) :
    store.arrival t = .following s t := by
  unfold arrival parent?
  rw [ht, Option.bind_some, hs]
  rfl

variable [Field R] [LinearOrder R] [IsStrictOrderedRing R] [FloorRing R] {ctx : Context R}

/-- What follows a state does not depend on its number. -/
theorem next_arrival (id : StateId) : (store.arrival s).next ctx =
    (ctx.successors id s).map fun p => .following s p.2 := by
  simp only [Arrival.next, Context.successors, Context.traverse, List.map_filterMap,
    Option.map_map]
  rfl

theorem arrival_beats [Geodesy R] : (store.arrival s).beats ctx (store.arrival t) =
    (s.vertex = t.vertex && ctx.dominates ctx.request.dominance store s t) := by
  have hdominates : (store.arrival s).beats ctx (store.arrival t) =
      (s.vertex = t.vertex && onSameSide s t &&
        (boardedAfterChange store s t || (s.plane = t.plane && !ctx.futureDiffers s t &&
          ctx.request.dominance.noWorse s t))) := rfl
  rw [hdominates, Bool.and_assoc]
  rfl

end StateStore

/-! ## Outlines -/

/-- What is left of a search without the numbers of its states. -/
structure Outline (R : Type) where
  /-- What counts and can be compared. -/
  labels : List (Arrival R)
  /-- What waits and counts, in the order of service. -/
  waiting : List (Arrival R)
  deriving DecidableEq

namespace Outline

variable {R : Type} [Field R] [LinearOrder R] [IsStrictOrderedRing R] [FloorRing R] [Geodesy R]

/-- Puts an arrival before the first one of a higher priority. -/
def insertOrdered (ctx : Context R) (a : Arrival R) : List (Arrival R) → List (Arrival R)
  | [] => [a]
  | first :: rest =>
    if a.priority ctx < first.priority ctx then a :: first :: rest
    else first :: insertOrdered ctx a rest

/-- The outline with one more arrival, which waits. -/
def accept (ctx : Context R) (o : Outline R) (a : Arrival R) : Outline R where
  labels := (o.labels.filter (fun b => !a.beats ctx b) ++ [a]).filter Arrival.isComparable
  waiting := insertOrdered ctx a (o.waiting.filter fun b => !a.beats ctx b)

/-- Lets an arrival wait, unless it is needless. -/
def offer (ctx : Context R) (o : Outline R) (a : Arrival R) : Outline R :=
  if o.labels.any fun b => b.beats ctx a then o else o.accept ctx a

/-- Serves the first arrival that waits, as long as it has not arrived at the destination and those
that follow stay within the region. -/
def step? (ctx : Context R) (region : List VertexIndex) (o : Outline R) : Option (Outline R) :=
  match o.waiting with
  | [] => none
  | a :: rest =>
    if !ctx.isFinal a.state && (a.next ctx).all fun b => b.state.vertex ∈ region then
      some ((a.next ctx).foldl (offer ctx) { o with waiting := rest })
    else none

/-- Serves so many arrivals. -/
def steps? (ctx : Context R) (region : List VertexIndex) : Nat → Outline R → Option (Outline R)
  | 0, o => some o
  | n + 1, o => (o.step? ctx region).bind (steps? ctx region n)

omit [Field R] [LinearOrder R] [IsStrictOrderedRing R] [FloorRing R] [Geodesy R] in
/-- What is known of a smaller region. -/
def within (region : List VertexIndex) (o : Outline R) : Outline R :=
  { o with labels := o.labels.filter fun a => a.state.vertex ∈ region }

variable {ctx : Context R} {region : List VertexIndex} {o o' : Outline R} {a b : Arrival R}

theorem mem_accept_labels : b ∈ (o.accept ctx a).labels ↔
    (b = a ∨ b ∈ o.labels ∧ a.beats ctx b = false) ∧ b.isComparable = true := by
  simp only [accept, List.mem_filter, List.mem_append, List.mem_singleton, Bool.not_eq_true',
    or_comm]

theorem step?_eq_some_iff : o.step? ctx region = some o' ↔
    ∃ a rest, o.waiting = a :: rest ∧ ctx.isFinal a.state = false ∧
      (∀ b ∈ a.next ctx, b.state.vertex ∈ region) ∧
        o' = (a.next ctx).foldl (offer ctx) { o with waiting := rest } := by
  unfold step?
  cases hwaiting : o.waiting with
  | nil => simp
  | cons a rest =>
    simp only [Option.ite_none_right_eq_some, Bool.and_eq_true, Bool.not_eq_true',
      List.all_eq_true, decide_eq_true_eq, Option.some.injEq]
    constructor
    · rintro ⟨⟨hfinal, hregion⟩, rfl⟩
      exact ⟨a, rest, rfl, hfinal, hregion, rfl⟩
    · rintro ⟨_, _, h, hfinal, hregion, rfl⟩
      cases h
      exact ⟨⟨hfinal, hregion⟩, rfl⟩

end Outline

/-! ## Outlines of searches -/

namespace Search

variable {R : Type} [Field R] [LinearOrder R] [IsStrictOrderedRing R] [FloorRing R] [Geodesy R]
  {ctx : Context R} {search rest : Search R} {s : State R} {id i : StateId} {a b : Arrival R}

omit [Field R] [LinearOrder R] [IsStrictOrderedRing R] [FloorRing R] [Geodesy R] in
/-- The arrival with a number, if it counts. -/
def arrival? (search : Search R) (i : StateId) : Option (Arrival R) :=
  if search.tree.isPruned i then none else (search.store.get? i).map search.store.arrival

omit [Field R] [LinearOrder R] [IsStrictOrderedRing R] [FloorRing R] [Geodesy R] in
theorem arrival?_eq_some_iff : search.arrival? i = some a ↔ search.tree.isPruned i = false ∧
    ∃ s, search.store.get? i = some s ∧ search.store.arrival s = a := by
  unfold arrival?
  cases search.tree.isPruned i <;> simp

abbrev Labelled (ctx : Context R) (search : Search R) : Prop :=
  Tree.Labelled ctx ctx.request.dominance search.tree search.store

theorem Labelled.arrival?_accept_size (H : search.Labelled ctx)
    (hs : search.store.HoldsParent s) :
    (search.accept ctx s).arrival? search.store.size = some (search.store.arrival s) := by
  refine arrival?_eq_some_iff.2 ⟨?_, s, StateStore.get?_push_size, hs.arrival_push⟩
  exact H.toKept.accept.counts (Tree.mem_accept_at?.2 (.inr ⟨rfl, rfl⟩))

/-- What counted counts still unless the new state beats it. -/
theorem Labelled.arrival?_accept (H : search.Labelled ctx) (hi : i < search.store.size) :
    (search.accept ctx s).arrival? i =
      (search.arrival? i).filter fun a => !(search.store.arrival s).beats ctx a := by
  obtain ⟨t, ht⟩ := StateStore.get?_isSome_of_lt hi
  have hget : (search.store.push s).get? i = some t := StateStore.get?_push_of_get? ht
  have harrival : (search.store.push s).arrival t = search.store.arrival t :=
    (H.parents ht).arrival_push
  unfold arrival?
  change (if (search.tree.accept ctx search.store s).isPruned i then none
    else ((search.store.push s).get? i).map (search.store.push s).arrival) = _
  rw [hget, ht, Option.map_some, Option.map_some, harrival]
  cases hpruned : search.tree.isPruned i with
  | true =>
    rw [Tree.accept_isPruned.2 (.inl hpruned)]
    rfl
  | false =>
    have hbeaten : i ∈ search.tree.beaten ctx search.store s ↔
        (search.store.arrival s).beats ctx (search.store.arrival t) = true := by
      rw [Tree.mem_beaten, StateStore.arrival_beats, H.goesBy, Bool.and_eq_true,
        decide_eq_true_eq]
      constructor
      · rintro ⟨hmem, other, hother, hdom⟩
        cases ht.symm.trans hother
        exact ⟨(H.vertex_eq hmem ht).symm, hdom⟩
      · rintro ⟨hv, hdom⟩
        exact ⟨hv ▸ H.listed ht hpruned, t, ht, hdom⟩
    cases hbeats : (search.store.arrival s).beats ctx (search.store.arrival t) with
    | true =>
      rw [Tree.accept_isPruned.2 (.inr (hbeaten.2 hbeats))]
      simp [Option.filter, hbeats]
    | false =>
      have hnot : i ∉ search.tree.beaten ctx search.store s := fun h => by
        rw [hbeaten.1 h] at hbeats
        cases hbeats
      rw [Tree.accept_counts.2 ⟨hpruned, hnot⟩]
      simp [Option.filter, hbeats]

theorem Labelled.exists_arrival?_accept (H : search.Labelled ctx)
    (hs : search.store.HoldsParent s) : (∃ i, (search.accept ctx s).arrival? i = some a) ↔
      a = search.store.arrival s ∨
        (∃ i, search.arrival? i = some a) ∧ (search.store.arrival s).beats ctx a = false := by
  constructor
  · rintro ⟨i, hi⟩
    obtain ⟨-, t, ht, -⟩ := arrival?_eq_some_iff.1 hi
    have hle := StateStore.lt_size_of_get? ht
    rw [accept, StateStore.size_push, Nat.lt_succ_iff_lt_or_eq] at hle
    rcases hle with hlt | rfl
    · rw [H.arrival?_accept hlt, Option.filter_eq_some_iff, Bool.not_eq_true'] at hi
      exact .inr ⟨⟨i, hi.1⟩, hi.2⟩
    · rw [H.arrival?_accept_size hs] at hi
      exact .inl (Option.some.inj hi).symm
  · rintro (rfl | ⟨⟨i, hi⟩, hbeats⟩)
    · exact ⟨_, H.arrival?_accept_size hs⟩
    · obtain ⟨-, t, ht, -⟩ := arrival?_eq_some_iff.1 hi
      refine ⟨i, ?_⟩
      rw [H.arrival?_accept (StateStore.lt_size_of_get? ht), Option.filter_eq_some_iff,
        Bool.not_eq_true']
      exact ⟨hi, hbeats⟩

/-- A state is rejected if an arrival that counts beats it. -/
theorem Labelled.rejects_iff (H : search.Labelled ctx) :
    search.tree.rejects ctx search.store s = true ↔
      ∃ i a, search.arrival? i = some a ∧ a.beats ctx (search.store.arrival s) = true := by
  rw [Tree.rejects_iff, H.goesBy]
  constructor
  · rintro ⟨i, hi, t, ht, hdom⟩
    refine ⟨i, _, arrival?_eq_some_iff.2 ⟨H.counts hi, t, ht, rfl⟩, ?_⟩
    rw [StateStore.arrival_beats, H.vertex_eq hi ht, hdom, decide_eq_true rfl, Bool.and_true]
  · rintro ⟨i, a, ha, hbeats⟩
    obtain ⟨hcounts, t, ht, rfl⟩ := arrival?_eq_some_iff.1 ha
    rw [StateStore.arrival_beats, Bool.and_eq_true, decide_eq_true_eq] at hbeats
    exact ⟨i, hbeats.1 ▸ H.listed ht hcounts, t, ht, hbeats.2⟩

omit [Field R] [LinearOrder R] [IsStrictOrderedRing R] [FloorRing R] [Geodesy R] in
/-- The arrivals that wait and count, in the order of service. -/
def arrivals (search : Search R) : List (Arrival R) :=
  search.queue.waiting.filterMap fun w => search.arrival? w.id

end Search

/-- The outline has the arrivals of the search that wait, and those that are in the region and can
be compared. -/
structure Outline.Depicts {R : Type} (region : List VertexIndex) (o : Outline R)
    (search : Search R) : Prop where
  labels : ∀ {a : Arrival R}, a.state.vertex ∈ region →
    (a ∈ o.labels ↔ (∃ i, search.arrival? i = some a) ∧ a.isComparable = true)
  waiting : search.arrivals = o.waiting

namespace Outline

variable {R : Type} [Field R] [LinearOrder R] [IsStrictOrderedRing R] [FloorRing R] [Geodesy R]
  {ctx : Context R} {region region' : List VertexIndex} {o o' : Outline R} {a b : Arrival R}
  {search rest : Search R} {s : State R} {id : StateId} {w : Waiting R} {ws : List (Waiting R)}
  {n : Nat}

theorem insertOrdered_of_lt {as : List (Arrival R)}
    (h : ∀ b ∈ as, a.priority ctx < b.priority ctx) : insertOrdered ctx a as = a :: as := by
  cases as with
  | nil => rfl
  | cons b as => exact if_pos (h b List.mem_cons_self)

omit [Geodesy R] in
theorem isBefore_iff_of_lt {x : Waiting R} (h : x.id < w.id) :
    w.isBefore x = true ↔ w.priority < x.priority := by
  have hid : ¬ w.id ≤ x.id := Nat.not_le.2 h
  simp only [Waiting.isBefore, Bool.and_eq_true, Bool.or_eq_true, Bool.not_eq_true',
    decide_eq_true_eq, hid, or_false, Quantity.ranksBefore_iff, ← Bool.not_eq_true, not_le]
  exact ⟨And.right, fun h => ⟨h.le, h⟩⟩

/-- The place of a new arrival among those that count. -/
theorem filterMap_insertOrdered {f : Waiting R → Option (Arrival R)} (hw : f w = some a)
    (hpriority : w.priority = a.priority ctx)
    (hpriced : ∀ x ∈ ws, ∀ b ∈ f x, x.priority = b.priority ctx)
    (hyounger : ∀ x ∈ ws, x.id < w.id) (hsorted : Queue.Sorted ws) :
    (Queue.insertOrdered w ws).filterMap f = insertOrdered ctx a (ws.filterMap f) := by
  induction ws with
  | nil => simp [Queue.insertOrdered, insertOrdered, hw]
  | cons x ws ih =>
    obtain ⟨hfirst, hrest⟩ := List.pairwise_cons.1 hsorted
    unfold Queue.insertOrdered
    split
    · rename_i hbefore
      have hlt := (isBefore_iff_of_lt (hyounger x List.mem_cons_self)).1 hbefore
      rw [List.filterMap_cons_some hw, insertOrdered_of_lt]
      intro b hb
      obtain ⟨y, hy, hb⟩ := List.mem_filterMap.1 hb
      rw [← hpriority, ← hpriced y hy b hb]
      rcases List.mem_cons.1 hy with rfl | hy
      · exact hlt
      · exact hlt.trans_le (hfirst y hy)
    · rename_i hafter
      have hle := mt (isBefore_iff_of_lt (hyounger x List.mem_cons_self)).2 hafter
      have ih := ih (fun y hy => hpriced y (List.mem_cons_of_mem _ hy))
        (fun y hy => hyounger y (List.mem_cons_of_mem _ hy)) hrest
      cases hx : f x with
      | none => rw [List.filterMap_cons_none hx, List.filterMap_cons_none hx, ih]
      | some b =>
        rw [List.filterMap_cons_some hx, List.filterMap_cons_some hx, ih]
        rw [hpriority, hpriced x List.mem_cons_self b hx] at hle
        exact (if_neg hle).symm

namespace Depicts

omit [Field R] [LinearOrder R] [IsStrictOrderedRing R] [FloorRing R] [Geodesy R] in
theorem of_eq {next : Search R} (H : o.Depicts region search)
    (hstore : next.store = search.store) (htree : next.tree = search.tree)
    (hqueue : next.queue = search.queue) : o.Depicts region next := by
  have harrival : next.arrival? = search.arrival? := by
    funext i
    unfold Search.arrival?
    rw [hstore, htree]
  refine ⟨fun ha => ?_, ?_⟩
  · rw [harrival]
    exact H.labels ha
  · rw [← H.waiting]
    unfold Search.arrivals
    rw [harrival, hqueue]

omit [Field R] [LinearOrder R] [IsStrictOrderedRing R] [FloorRing R] [Geodesy R] in
theorem within (H : o.Depicts region search) (hsub : region' ⊆ region) :
    (o.within region').Depicts region' search where
  labels ha := by
    rw [← H.labels (hsub ha), Outline.within, List.mem_filter]
    exact and_iff_left (decide_eq_true ha)
  waiting := H.waiting

/-- Whether a state is rejected shows in the outline. -/
theorem rejects_iff (H : o.Depicts region search) (hlabelled : search.Labelled ctx)
    (hv : s.vertex ∈ region) : search.tree.rejects ctx search.store s = true ↔
      (o.labels.any fun b => b.beats ctx (search.store.arrival s)) = true := by
  rw [hlabelled.rejects_iff, List.any_eq_true]
  constructor
  · rintro ⟨i, a, ha, hbeats⟩
    obtain ⟨hsame, hside⟩ := Arrival.vertex_of_beats hbeats
    have htimed := (Context.onSameSide_iff.1 hside).2.2.1
    refine ⟨a, (H.labels (hsame.symm ▸ hv)).2 ⟨⟨i, ha⟩, ?_⟩, hbeats⟩
    rw [Arrival.isComparable, htimed]
    rfl
  · rintro ⟨a, ha, hbeats⟩
    have hsame := (Arrival.vertex_of_beats hbeats).1
    obtain ⟨⟨i, hi⟩, -⟩ := (H.labels (hsame.symm ▸ hv)).1 ha
    exact ⟨i, a, hi, hbeats⟩

theorem accept (H : o.Depicts region search) (hlabelled : search.Labelled ctx)
    (hserved : search.Served ctx) (hqueued : search.Queued) (hs : search.store.HoldsParent s) :
    (o.accept ctx (search.store.arrival s)).Depicts region (search.accept ctx s) where
  labels {a} ha := by
    rw [mem_accept_labels, H.labels ha, hlabelled.exists_arrival?_accept hs]
    tauto
  waiting := by
    have hkept : search.queue.waiting.filterMap (fun w => (search.accept ctx s).arrival? w.id) =
        o.waiting.filter fun b => !(search.store.arrival s).beats ctx b := by
      rw [← H.waiting, Search.arrivals, List.filter_filterMap]
      refine List.filterMap_congr fun w hw => ?_
      exact hlabelled.arrival?_accept (hqueued.stored _ (List.mem_map_of_mem hw))
    rw [Outline.accept, ← hkept]
    refine filterMap_insertOrdered (hlabelled.arrival?_accept_size hs) rfl ?_ ?_ hserved.sorted
    · intro x hx b hb
      obtain ⟨t, ht, hpriority⟩ := hserved.priced x hx
      obtain ⟨-, t', ht', rfl⟩ := Search.arrival?_eq_some_iff.1 hb
      cases (StateStore.get?_push_of_get? ht).symm.trans ht'
      exact hpriority
    · exact fun x hx => hqueued.stored _ (List.mem_map_of_mem hx)

/-- Offering what follows a state goes on alike in the outline. -/
theorem expand (H : o.Depicts region search) (hexp : Search.Expanding ctx id s search)
    (hlabelled : search.Labelled ctx) (hserved : search.Served ctx)
    (hregion : ∀ b ∈ (search.store.arrival s).next ctx, b.state.vertex ∈ region) :
    (((search.store.arrival s).next ctx).foldl (offer ctx) o).Depicts region
      (search.expand ctx id s) := by
  rw [StateStore.next_arrival id] at hregion ⊢
  let P (done : List (EdgeIndex × State R)) (search : Search R) : Prop :=
    Search.Expanding ctx id s search ∧ search.Labelled ctx ∧ search.Served ctx ∧
      ((done.map fun p => Arrival.following s p.2).foldl (offer ctx) o).Depicts region search
  have hP : P (ctx.successors id s) (search.expand ctx id s) := by
    have harrival : ∀ {search : Search R} {p}, Search.Expanding ctx id s search →
        p ∈ ctx.successors id s → search.store.arrival p.2 = .following s p.2 := fun hexp hp =>
      StateStore.arrival_eq_following hexp.stored (Context.parent_of_mem_successors hp)
    have hinside : ∀ p ∈ ctx.successors id s, p.2.vertex ∈ region := fun p hp =>
      hregion _ (List.mem_map_of_mem hp)
    refine Search.expand_induct ?_ ?_ ?_ ⟨hexp, hlabelled, hserved, H⟩
    · rintro done search event ⟨hexp, hlabelled, hserved, H⟩
      exact ⟨hexp.note, hlabelled, ⟨hserved.sorted, hserved.priced⟩, H.of_eq rfl rfl rfl⟩
    · rintro done search p hp hrejected ⟨hexp, hlabelled, hserved, H⟩
      refine ⟨hexp, hlabelled, hserved, ?_⟩
      rw [H.rejects_iff hlabelled (hinside p hp), harrival hexp hp] at hrejected
      rw [List.map_append, List.foldl_append, List.map_singleton, List.foldl_cons, List.foldl_nil,
        offer, if_pos hrejected]
      exact H
    · rintro done search p hp hkept ⟨hexp, hlabelled, hserved, H⟩
      have hparent : search.store.HoldsParent p.2 := by
        intro i hi
        cases (Context.parent_of_mem_successors hp).symm.trans hi
        exact StateStore.lt_size_of_get? hexp.stored
      refine ⟨hexp.accept hp, hlabelled.accept hparent hkept, hserved.accept, ?_⟩
      rw [← Bool.not_eq_true, H.rejects_iff hlabelled (hinside p hp), harrival hexp hp] at hkept
      rw [List.map_append, List.foldl_append, List.map_singleton, List.foldl_cons, List.foldl_nil,
        offer, if_neg hkept, ← harrival hexp hp]
      exact H.accept hlabelled hserved hexp.consistent.queued hparent
  exact hP.2.2.2

/-- The first arrival of the outline is the next state of the search. -/
theorem next? {as : List (Arrival R)} (H : o.Depicts region search) (hserved : search.Served ctx)
    (hwaiting : o.waiting = a :: as) : ∃ id rest s, search.next? = some (id, rest) ∧
      rest.store.get? id = some s ∧ rest.store.arrival s = a ∧
        ({ o with waiting := as } : Outline R).Depicts region rest := by
  obtain ⟨dropped, w, behind, hqueue, hdropped, hw, hbehind⟩ :=
    List.filterMap_eq_cons_iff.1 (H.waiting.trans hwaiting)
  obtain ⟨hcounts, s, hs, ha⟩ := Search.arrival?_eq_some_iff.1 hw
  have hpruned : ∀ x ∈ dropped, search.tree.isPruned x.id = true := by
    intro x hx
    have hnone := hdropped x hx
    have hmem : x ∈ search.queue.waiting := by simp [hqueue, hx]
    obtain ⟨t, ht, -⟩ := hserved.priced x hmem
    simpa [Search.arrival?, ht] using hnone
  refine ⟨w.id, { search with queue := ⟨behind⟩ }, s, ?_, hs, ha, ⟨H.labels, hbehind⟩⟩
  exact Search.next?_eq_some_iff.2 ⟨dropped, w, behind, hqueue, hpruned, hcounts, rfl, rfl⟩

/-- The search takes the step that the outline takes, and finds nothing by it. -/
theorem advance (H : o.Depicts region search) (hreached : search.Reached ctx)
    (hshort : search.found.length < ctx.request.numItineraries)
    (hstep : o.step? ctx region = some o') : ∃ next, search.advance? ctx = some next ∧
      next.found = search.found ∧ o'.Depicts region next := by
  obtain ⟨a, as, hwaiting, hfinal, hregion, rfl⟩ := step?_eq_some_iff.1 hstep
  obtain ⟨id, rest, s, hnext, hs, rfl, hdepicts⟩ := H.next? hreached.served hwaiting
  obtain ⟨hrest, hpopped, -⟩ := hreached.consistent.next? hnext
  obtain ⟨hstore, htree, hfound⟩ := Search.next?_rest hnext
  obtain ⟨offered, hmoment⟩ := hreached.moment
  have hlabelled : (rest.note (.visited s)).Labelled ctx := by
    have h : search.Labelled ctx := hmoment.tree_offered.labelled
    rwa [Search.Labelled, ← hstore, ← htree] at h
  have hserved := hreached.served.next? hnext
  have hgoes : ctx.isFinal s = false := hfinal
  have hexp : Search.Expanding ctx id s (rest.note (.visited s)) :=
    ⟨hrest.note, hs, hgoes, hpopped⟩
  refine ⟨_, Search.advance?_eq_some_iff.2 ⟨hshort, id, rest, hnext, rfl⟩, ?_⟩
  rw [Search.settle_eq hs, if_neg (Bool.eq_false_iff.1 hgoes)]
  have hnoted : ({ o with waiting := as } : Outline R).Depicts region (rest.note (.visited s)) :=
    hdepicts.of_eq rfl rfl rfl
  exact ⟨Search.expand_found.trans hfound,
    hnoted.expand hexp hlabelled ⟨hserved.sorted, hserved.priced⟩ hregion⟩

/-- A run begins as the outline goes on. -/
theorem run (H : o.Depicts region search) (hreached : search.Reached ctx)
    (hshort : search.found.length < ctx.request.numItineraries)
    (hsteps : o.steps? ctx region n = some o') : ∃ next, next.Reached ctx ∧
      next.found = search.found ∧ o'.Depicts region next ∧
        ∀ k, Search.run ctx (n + k) search = Search.run ctx k next := by
  induction n generalizing o search with
  | zero =>
    cases hsteps
    exact ⟨search, hreached, rfl, H, fun k => by rw [Nat.zero_add]⟩
  | succ n ih =>
    obtain ⟨o'', hstep, hrest⟩ := Option.bind_eq_some_iff.1 hsteps
    obtain ⟨next, hadvance, hfound, hnext⟩ := H.advance hreached hshort hstep
    obtain ⟨last, hlast, hfound', hdepicts, hrun⟩ :=
      ih hnext (hreached.advance hadvance) (hfound ▸ hshort) hrest
    refine ⟨last, hlast, hfound'.trans hfound, hdepicts, fun k => ?_⟩
    rw [Nat.add_right_comm, Search.run_of_advance?_eq_some hadvance, hrun]

end Depicts

end Outline

end TripPlanner
