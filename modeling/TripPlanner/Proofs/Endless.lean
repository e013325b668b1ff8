import Mathlib.Data.Set.Finite.Basic
import Mathlib.Order.Interval.Set.Basic
import TripPlanner.Proofs.Pruning

/-!
# Endless runs

A run that has ended stays as it is when more steps are granted (`Search.run_of_le`). A run that
ends for no number of steps stores one state after the other without end. `History` is what such a
sequence of states keeps of the runs: each state but the first follows an earlier one, none is
followed by infinitely many, and dominance leaves its traces.
-/

namespace TripPlanner

/-- The store holds a part of the sequence. -/
def StateStore.PartOf {R : Type} (store : StateStore R) (st : Nat → State R) : Prop :=
  ∀ {i a}, store.get? i = some a → st i = a

section
variable {R : Type} [Quantity R] [Geodesy R]

/-- The later state of the sequence prunes the earlier one, in some store. -/
def Context.Prunes (ctx : Context R) (st : Nat → State R) (k i : Nat) : Prop :=
  ∃ store : StateStore R, ctx.Grown store ∧ store.PartOf st ∧ store.Prunes ctx k i

/-- The states of a run that does not end. -/
structure Context.History (ctx : Context R) (st : Nat → State R) : Prop where
  origin : st 0 = .initial ctx.origin
  reachable : ∀ i, ctx.Reachable (st i)
  parent : ∀ {i}, 0 < i → ∃ p e, (e, st i) ∈ ctx.successors p (st p)
  children : ∀ p, {i | (st i).parent = some p}.Finite
  pruned : ∀ {i j}, i < j → (st i).vertex = (st j).vertex → onSameSide (st i) (st j) = true →
    (st i).plane = (st j).plane → ctx.futureDiffers (st i) (st j) = false →
    ctx.request.dominance.noWorse (st i) (st j) = true → ∃ k, ctx.Prunes st k i

end

namespace Search

variable {R : Type} [Quantity R] [Geodesy R] {ctx : Context R} {search : Search R} {a s : State R}
  {i id n m c : Nat} {seq : Nat → Search R} {st : Nat → State R}

/-! ## What a step does to the store -/

theorem get?_settle_of_get? (h : search.store.get? i = some a) :
    (search.settle ctx id).store.get? i = some a := by
  cases hs : search.store.get? id with
  | none => simpa [settle, hs] using h
  | some s =>
    rw [settle_eq hs]
    split
    · exact h
    · exact expand_keeps (P := fun next => next.store.get? i = some a) (fun _ _ h => h)
        (fun _ _ _ _ _ h => StateStore.get?_push_of_get? h) h

/-- New states follow the one that is settled. -/
theorem get?_settle_cases (h : (search.settle ctx id).store.get? i = some a) :
    search.store.get? i = some a ∨ a.parent = some id := by
  cases hs : search.store.get? id with
  | none => exact .inl (by simpa [settle, hs] using h)
  | some s =>
    rw [settle_eq hs] at h
    split at h
    · exact .inl h
    · let P (next : Search R) : Prop := ∀ i a, next.store.get? i = some a →
        search.store.get? i = some a ∨ a.parent = some id
      have hstart : P (search.note (.visited s)) := fun _ _ => .inl
      refine expand_keeps (fun _ _ h => h) (fun next e t ht _ ih i a hget => ?_) hstart i a h
      rcases StateStore.get?_push_cases hget with hold | ⟨-, rfl⟩
      · exact ih i a hold
      · exact .inr (Context.parent_of_mem_successors ht)

/-- Every state that comes to wait is a new one. -/
theorem settle_room (h : search.queue.ids.length + c ≤ search.store.size) :
    (search.settle ctx id).queue.ids.length + c ≤ (search.settle ctx id).store.size := by
  cases hs : search.store.get? id with
  | none => simpa [settle, hs] using h
  | some s =>
    rw [settle_eq hs]
    split
    · exact h
    · refine expand_keeps (P := fun next => next.queue.ids.length + c ≤ next.store.size)
        (fun _ _ h => h) (fun next e t _ _ h => ?_) h
      simp only [Search.accept, StateStore.size_push, Queue.ids_push_perm.length_eq,
        List.length_cons]
      omega

omit [Quantity R] [Geodesy R] in
/-- At least one state is taken off the queue. -/
theorem next?_length_lt {rest : Search R} (h : search.next? = some (id, rest)) :
    rest.queue.ids.length < search.queue.ids.length := by
  obtain ⟨dropped, w, behind, hwaiting, -, -, -, rfl⟩ := next?_eq_some_iff.1 h
  have hlength : search.queue.ids.length = dropped.length + (behind.length + 1) := by
    simp [Queue.ids, hwaiting]
  simp only [Queue.ids, List.length_map] at hlength ⊢
  omega

/-- A step makes room for one more: it takes a state off the queue and stores all that it adds. -/
theorem advance?_room {next : Search R} (h : search.advance? ctx = some next)
    (hroom : search.queue.ids.length + c ≤ search.store.size) :
    next.queue.ids.length + (c + 1) ≤ next.store.size := by
  obtain ⟨-, id, rest, hnext, rfl⟩ := advance?_eq_some_iff.1 h
  have hlt := next?_length_lt hnext
  refine settle_room ?_
  rw [(next?_rest hnext).1]
  omega

/-! ## More steps -/

theorem run_zero_fst : (run ctx 0 search).1 = search := by
  cases h : search.advance? ctx with
  | none => rw [run_of_advance?_eq_none h]
  | some next => rw [run_zero_of_advance?_eq_some h]

theorem run_snd_ne_of_advance?_eq_none (h : search.advance? ctx = none) :
    (run ctx n search).2 ≠ .outOfSteps := by
  rw [run_of_advance?_eq_none h]
  dsimp only
  split <;> simp

/-- One more step goes on from where the steps before have led. -/
theorem run_advance? (h : (run ctx (n + 1) search).2 = .outOfSteps) :
    (run ctx n search).1.advance? ctx = some (run ctx (n + 1) search).1 := by
  induction n generalizing search with
  | zero =>
    cases hnext : search.advance? ctx with
    | none => exact absurd h (run_snd_ne_of_advance?_eq_none hnext)
    | some next => rw [run_zero_fst, run_of_advance?_eq_some hnext, run_zero_fst, hnext]
  | succ n ih =>
    cases hnext : search.advance? ctx with
    | none => exact absurd h (run_snd_ne_of_advance?_eq_none hnext)
    | some next =>
      rw [run_of_advance?_eq_some hnext] at h
      rw [run_of_advance?_eq_some hnext, run_of_advance?_eq_some hnext]
      exact ih h

/-- A run that had to stop goes on from where it has stopped. -/
theorem run_add (h : (run ctx n search).2 = .outOfSteps) :
    run ctx (n + m) search = run ctx m (run ctx n search).1 := by
  induction n generalizing search with
  | zero => rw [run_zero_fst, Nat.zero_add]
  | succ n ih =>
    cases hnext : search.advance? ctx with
    | none => exact absurd h (run_snd_ne_of_advance?_eq_none hnext)
    | some next =>
      rw [run_of_advance?_eq_some hnext] at h ⊢
      rw [Nat.add_right_comm, run_of_advance?_eq_some hnext]
      exact ih h

/-- A run that has ended ends in the same way when it is granted more steps. -/
theorem run_of_le (h : (run ctx n search).2 ≠ .outOfSteps) (hle : n ≤ m) :
    run ctx m search = run ctx n search := by
  induction n generalizing search m with
  | zero =>
    cases hnext : search.advance? ctx with
    | none => rw [run_of_advance?_eq_none hnext, run_of_advance?_eq_none hnext]
    | some next =>
      rw [run_zero_of_advance?_eq_some hnext] at h
      exact absurd rfl h
  | succ n ih =>
    obtain ⟨m, rfl⟩ := Nat.exists_eq_add_of_le' hle
    cases hnext : search.advance? ctx with
    | none => rw [run_of_advance?_eq_none hnext, run_of_advance?_eq_none hnext]
    | some next =>
      rw [run_of_advance?_eq_some hnext] at h
      rw [← Nat.add_assoc, run_of_advance?_eq_some hnext, run_of_advance?_eq_some hnext]
      exact ih h (Nat.le_add_left n m)

/-- As many states have come to be as steps were taken. -/
theorem le_size_of_outOfSteps (h : (run ctx n (start ctx)).2 = .outOfSteps) :
    (run ctx n (start ctx)).1.queue.ids.length + n ≤ (run ctx n (start ctx)).1.store.size := by
  induction n with
  | zero => simp [run_zero_fst, start_ids, start_store]
  | succ n ih =>
    have hbefore : (run ctx n (start ctx)).2 = .outOfSteps := by
      by_contra hended
      rw [run_of_le hended n.le_succ] at h
      exact hended h
    exact advance?_room (run_advance? h) (ih hbefore)

/-- As many states have come to be as were found. -/
theorem Reached.found_length_le_size (H : search.Reached ctx) :
    search.queue.ids.length + search.found.length ≤ search.store.size := by
  induction H with
  | start => simp [start_ids, start_store, start_found]
  | @advance search next _ h ih =>
    have hroom := advance?_room h ih
    obtain ⟨-, id, rest, hnext, rfl⟩ := advance?_eq_some_iff.1 h
    have hfound : (rest.settle ctx id).found.length ≤ rest.found.length + 1 :=
      settle_found_length_le
    rw [(next?_rest hnext).2.2] at hfound
    omega

/-! ## Runs without end -/

/-- The searches of a run that does not end. -/
structure Endless (ctx : Context R) (seq : Nat → Search R) : Prop where
  start : seq 0 = Search.start ctx
  step : ∀ n, (seq n).advance? ctx = some (seq (n + 1))

theorem endless_of_outOfSteps (h : ∀ n, (run ctx n (start ctx)).2 = .outOfSteps) :
    Endless ctx fun n => (run ctx n (start ctx)).1 where
  start := run_zero_fst
  step n := run_advance? (h (n + 1))

namespace Endless

theorem reached (H : Endless ctx seq) (n : Nat) : (seq n).Reached ctx := by
  induction n with
  | zero => exact H.start ▸ .start
  | succ n ih => exact ih.advance (H.step n)

theorem settled (H : Endless ctx seq) (n : Nat) : ∃ id rest, (seq n).next? = some (id, rest) ∧
    seq (n + 1) = rest.settle ctx id := by
  obtain ⟨-, h⟩ := advance?_eq_some_iff.1 (H.step n)
  exact h

theorem get?_of_le (H : Endless ctx seq) (h : (seq n).store.get? i = some a) (hle : n ≤ m) :
    (seq m).store.get? i = some a := by
  induction m, hle using Nat.le_induction with
  | base => exact h
  | succ m _ ih =>
    obtain ⟨id, rest, hnext, hseq⟩ := H.settled m
    rw [hseq]
    rw [← (next?_rest hnext).1] at ih
    exact get?_settle_of_get? ih

/-- As many states have come to be as steps were taken. -/
theorem le_size (H : Endless ctx seq) (n : Nat) :
    (seq n).queue.ids.length + n ≤ (seq n).store.size := by
  induction n with
  | zero => simp [H.start, start_ids, start_store]
  | succ n ih => exact advance?_room (H.step n) ih

/-- The states that come to be, by number. -/
theorem exists_states (H : Endless ctx seq) : ∃ st : Nat → State R,
    (∀ n, (seq n).store.PartOf st) ∧ ∀ i, ∃ n, (seq n).store.get? i = some (st i) := by
  have hstored : ∀ i, ∃ s, (seq (i + 1)).store.get? i = some s := by
    intro i
    have hlt : i < (seq (i + 1)).store.size :=
      Nat.lt_of_lt_of_le (Nat.lt_succ_self i) ((Nat.le_add_left _ _).trans (H.le_size (i + 1)))
    exact StateStore.get?_isSome_of_lt hlt
  choose st hst using hstored
  refine ⟨st, fun n i a ha => ?_, fun i => ⟨i + 1, hst i⟩⟩
  have h := H.get?_of_le ha (Nat.le_max_left n (i + 1))
  rw [H.get?_of_le (hst i) (Nat.le_max_right n (i + 1))] at h
  exact Option.some.inj h

/-- Once a state has been followed, no further one follows it: it does not wait any more. -/
theorem no_more_children (H : Endless ctx seq) {p c : Nat} (hs : (seq n).store.get? c = some s)
    (hp : s.parent = some p) (hle : n ≤ m) (ha : (seq m).store.get? i = some a)
    (hpa : a.parent = some p) : (seq n).store.get? i = some a := by
  induction m, hle using Nat.le_induction generalizing i a with
  | base => exact ha
  | succ m hle ih =>
    obtain ⟨id, rest, hnext, hseq⟩ := H.settled m
    rw [hseq] at ha
    rcases get?_settle_cases ha with hold | hnew
    · rw [(next?_rest hnext).1] at hold
      exact ih hold hpa
    · cases hnew.symm.trans hpa
      have hqueued := (H.reached m).consistent.queued
      have hwaits := (hqueued.next? hnext).2.1
      exact absurd hwaits (hqueued.fresh (H.get?_of_le hs hle) hp).2

/-- A run without end leaves a history. -/
theorem history (H : Endless ctx seq) (hpart : ∀ n, (seq n).store.PartOf st)
    (hst : ∀ i, ∃ n, (seq n).store.get? i = some (st i)) : ctx.History st := by
  have hgrown : ∀ n, ctx.Grown (seq n).store := fun n => (H.reached n).consistent.grown
  refine ⟨hpart 0 (hgrown 0).origin, fun i => ?_, fun {i} hi => ?_, fun p => ?_, ?_⟩
  · obtain ⟨n, hn⟩ := hst i
    exact (hgrown n).reachable hn
  · obtain ⟨n, hn⟩ := hst i
    obtain ⟨p, a, e, -, ha, -, hstep⟩ := (hgrown n).parent hn hi
    cases hpart n ha
    exact ⟨p, e, hstep⟩
  · rcases Set.eq_empty_or_nonempty {i | (st i).parent = some p} with hempty | ⟨c, hc⟩
    · rw [hempty]
      exact Set.finite_empty
    · obtain ⟨n, hn⟩ := hst c
      refine (Set.finite_lt_nat (seq n).store.size).subset fun i hi => ?_
      obtain ⟨m, hm⟩ := hst i
      have ha := H.get?_of_le hm (Nat.le_max_right n m)
      exact StateStore.lt_size_of_get? (H.no_more_children hn hc (Nat.le_max_left n m) ha hi)
  · intro i j hlt hv hside hplane hfuture hcost
    obtain ⟨n, hn⟩ := hst i
    obtain ⟨m, hm⟩ := hst j
    have hi := H.get?_of_le hn (Nat.le_max_left n m)
    have hj := H.get?_of_le hm (Nat.le_max_right n m)
    have hdom : ctx.dominates ctx.request.dominance (seq (max n m)).store (st i) (st j) = true :=
      Context.dominates_iff.2 ⟨hside, .inr ⟨hplane, hfuture, hcost⟩⟩
    obtain ⟨k, hk⟩ := (H.reached _).sifted.pruned hlt hi hj hv hdom
    exact ⟨k, _, hgrown _, hpart _, hk⟩

end Endless

end Search

end TripPlanner
