import TripPlanner.Proofs.Boarding
import TripPlanner.Proofs.Labels

/-!
# Moments

A run seen at close quarters. Between two steps of `Search.advance?` the successors of a state are
offered to the tree one after the other; `Search.Moment` are the searches at all these times, with
what was offered so far (`Moment.tree_offered`) and what is still pending.

Whatever was offered is held by a state that counts (`Moment.upheld`), in the sense of any relation
that is handed on when one state replaces another (`Context.Upholds`); if the relation is transitive
it is enough that dominance gives rise to it (`Moment.heldBy`). A state that counts waits, was
found, or has had its successors offered (`Moment.settled`).
-/

namespace TripPlanner

namespace Search

variable {R : Type} [Quantity R] [Geodesy R]

/-- The searches at all moments of a run, with the states that were offered to the tree so far and
the successors that are still to be offered. -/
inductive Moment (ctx : Context R) :
    List (State R) → List (EdgeIndex × State R) → Search R → Prop where
  | start : Moment ctx [.initial ctx.origin] [] (Search.start ctx)
  | arrive {offered search rest id s} : Moment ctx offered [] search →
      search.found.length < ctx.request.numItineraries → search.next? = some (id, rest) →
      rest.store.get? id = some s → ctx.isFinal s = true →
      Moment ctx offered [] (rest.settle ctx id)
  | expand {offered search rest id s} : Moment ctx offered [] search →
      search.found.length < ctx.request.numItineraries → search.next? = some (id, rest) →
      rest.store.get? id = some s → ctx.isFinal s = false →
      Moment ctx offered (ctx.successors id s)
        ((rest.note (.visited s)).noteAll (ctx.successors id s))
  | offer {offered search e s pending} : Moment ctx offered ((e, s) :: pending) search →
      Moment ctx (offered ++ [s]) pending (search.relax ctx s)

variable {ctx : Context R} {search next rest : Search R} {offered : List (State R)}
  {pending : List (EdgeIndex × State R)} {s t a : State R} {i id : StateId} {e : EdgeIndex}
  {v : VertexIndex}

omit [Quantity R] [Geodesy R] in
theorem noteAll_eq (search : Search R) (produced : List (EdgeIndex × State R)) :
    ∃ events, search.noteAll produced = { search with events := events } := by
  let P (next : Search R) : Prop := ∃ events, next = { search with events := events }
  refine noteAll_keeps (P := P) ?_ ⟨search.events, rfl⟩
  rintro _ event ⟨events, rfl⟩
  exact ⟨event :: events, rfl⟩

theorem settle_of_isFinal (hs : search.store.get? id = some s) (hf : ctx.isFinal s = true) :
    search.settle ctx id = { search.note (.visited s) with found := search.found ++ [id] } := by
  rw [settle_eq hs, if_pos hf]

theorem settle_of_not_isFinal (hs : search.store.get? id = some s) (hf : ctx.isFinal s = false) :
    search.settle ctx id = relaxAll ctx ((search.note (.visited s)).noteAll (ctx.successors id s))
      (ctx.successors id s) := by
  rw [settle_eq hs, hf, ← expand_eq]
  rfl

theorem Moment.relaxAll (H : Moment ctx offered pending search) :
    Moment ctx (offered ++ pending.map Prod.snd) [] (search.relaxAll ctx pending) := by
  induction pending generalizing offered search with
  | nil =>
    rw [List.map_nil, List.append_nil]
    exact H
  | cons p pending ih =>
    rw [List.map_cons, List.append_cons]
    exact ih H.offer

/-- A run comes through moments at which nothing is pending. -/
theorem Reached.moment (H : search.Reached ctx) : ∃ offered, Moment ctx offered [] search := by
  induction H with
  | start => exact ⟨_, .start⟩
  | advance hreached h ih =>
    obtain ⟨offered, hmoment⟩ := ih
    obtain ⟨hshort, id, rest, hnext, rfl⟩ := advance?_eq_some_iff.1 h
    obtain ⟨-, -, s, hs⟩ := hreached.consistent.next? hnext
    cases hf : ctx.isFinal s with
    | true => exact ⟨_, hmoment.arrive hshort hnext hs hf⟩
    | false =>
      rw [settle_of_not_isFinal hs hf]
      exact ⟨_, (hmoment.expand hshort hnext hs hf).relaxAll⟩

/-- From every moment on, offering what is pending leads back to the run. -/
theorem Moment.reached (H : Moment ctx offered pending search) :
    (search.relaxAll ctx pending).Reached ctx := by
  induction H with
  | start => exact .start
  | arrive _ hshort hnext _ _ ih =>
    exact ih.advance (advance?_eq_some_iff.2 ⟨hshort, _, _, hnext, rfl⟩)
  | expand _ hshort hnext hs hf ih =>
    rw [← settle_of_not_isFinal hs hf]
    exact ih.advance (advance?_eq_some_iff.2 ⟨hshort, _, _, hnext, rfl⟩)
  | offer _ ih => exact ih

/-! ## Consistency -/

theorem Expanding.relax (H : Expanding ctx id s search) (ht : (e, t) ∈ ctx.successors id s) :
    Expanding ctx id s (search.relax ctx t) := by
  rw [relax_eq]
  split
  · exact H
  · exact (H.accept ht).note

/-- At every moment the search is consistent, and what is pending comes from one state. -/
theorem Moment.expanding (H : Moment ctx offered pending search) :
    search.Consistent ctx ∧ (pending ≠ [] → ∃ id s, Expanding ctx id s search ∧
      ∀ p ∈ pending, p ∈ ctx.successors id s) := by
  induction H with
  | start => exact ⟨.start, fun h => absurd rfl h⟩
  | arrive _ _ hnext hs _ ih =>
    obtain ⟨hrest, hpopped, -⟩ := ih.1.next? hnext
    exact ⟨hrest.settle hs hpopped, fun h => absurd rfl h⟩
  | @expand _ _ rest id s _ _ hnext hs hf ih =>
    obtain ⟨hrest, hpopped, -⟩ := ih.1.next? hnext
    have hexp : Expanding ctx id s (rest.note (.visited s)) := ⟨hrest.note, hs, hf, hpopped⟩
    have hexp' : Expanding ctx id s ((rest.note (.visited s)).noteAll (ctx.successors id s)) :=
      noteAll_keeps (fun _ _ => Expanding.note) hexp
    exact ⟨hexp'.consistent, fun _ => ⟨id, s, hexp', fun _ hp => hp⟩⟩
  | offer _ ih =>
    obtain ⟨id, s, hexp, hpending⟩ := ih.2 (List.cons_ne_nil _ _)
    have hexp' := hexp.relax (hpending _ List.mem_cons_self)
    exact ⟨hexp'.consistent, fun _ =>
      ⟨id, s, hexp', fun p hp => hpending p (List.mem_cons_of_mem _ hp)⟩⟩

theorem Moment.consistent (H : Moment ctx offered pending search) : search.Consistent ctx :=
  H.expanding.1

theorem Moment.born_of_mem_pending (H : Moment ctx offered pending search) {p}
    (hp : p ∈ pending) : ctx.Born search.store p.2 := by
  obtain ⟨id, s, hexp, hpending⟩ := H.expanding.2 (List.ne_nil_of_mem hp)
  exact .inr ⟨id, s, p.1, hexp.stored, hpending p hp⟩

/-- The tree and the store are what comes of offering these states to an empty tree. -/
theorem Moment.tree_offered (H : Moment ctx offered pending search) :
    Tree.Offered ctx ctx.request.dominance offered (search.tree, search.store) := by
  induction H with
  | start =>
    rw [start_eq]
    exact Tree.Offered.nil.snoc fun _ hp => nomatch hp
  | arrive _ _ hnext hs hf ih =>
    obtain ⟨hstore, htree, -⟩ := next?_rest hnext
    rw [settle_of_isFinal hs hf, note, htree, hstore]
    exact ih
  | @expand _ _ rest id s _ _ hnext _ _ ih =>
    obtain ⟨events, heq⟩ := noteAll_eq (rest.note (.visited s)) (ctx.successors id s)
    obtain ⟨hstore, htree, -⟩ := next?_rest hnext
    rw [heq, note, htree, hstore]
    exact ih
  | @offer _ search _ s _ H ih =>
    have hsnoc := ih.snoc (H.born_of_mem_pending List.mem_cons_self).holdsParent
    rw [Tree.offer_eq] at hsnoc
    rw [relax_eq]
    split
    · rwa [if_pos ‹_›] at hsnoc
    · rwa [if_neg ‹_›] at hsnoc

theorem Moment.mem_offered (H : Moment ctx offered pending search)
    (hs : search.store.get? i = some s) : s ∈ offered :=
  H.tree_offered.mem_of_get? hs

/-- What tree, store and results have at the start, and what arriving and accepting a state keep
up. -/
theorem Moment.induct_kept {P : Tree → StateStore R → List StateId → Prop}
    (H : Moment ctx offered pending search)
    (hstart : P (Search.start ctx).tree (Search.start ctx).store [])
    (harrive : ∀ {offered search rest id s}, Moment ctx offered [] search →
      search.next? = some (id, rest) → search.store.get? id = some s → ctx.isFinal s = true →
      P search.tree search.store search.found →
      P search.tree search.store (search.found ++ [id]))
    (haccept : ∀ {offered e s pending search}, Moment ctx offered ((e, s) :: pending) search →
      search.tree.rejects ctx search.store s = false → P search.tree search.store search.found →
      P (search.tree.accept ctx search.store s) (search.store.push s) search.found) :
    P search.tree search.store search.found := by
  induction H with
  | start =>
    rw [start_found]
    exact hstart
  | arrive H _ hnext hs hf ih =>
    rw [settle_of_isFinal hs hf]
    obtain ⟨hstore, htree, hfound⟩ := next?_rest hnext
    rw [hstore] at hs
    have h := harrive H hnext hs hf ih
    rwa [← hstore, ← htree, ← hfound] at h
  | @expand _ _ rest id s _ _ hnext _ _ ih =>
    obtain ⟨events, heq⟩ := noteAll_eq (rest.note (.visited s)) (ctx.successors id s)
    obtain ⟨hstore, htree, hfound⟩ := next?_rest hnext
    rwa [heq, note, hstore, htree, hfound]
  | offer H ih =>
    rw [relax_eq]
    split
    · exact ih
    · exact haccept H (Bool.not_eq_true _ ▸ ‹_›) ih

/-- What the store of the start has, and what storing a state that is not rejected keeps up. -/
theorem Moment.induct_store {P : StateStore R → Prop} (H : Moment ctx offered pending search)
    (hstart : P (Search.start ctx).store)
    (hpush : ∀ {offered e s pending search}, Moment ctx offered ((e, s) :: pending) search →
      search.tree.rejects ctx search.store s = false → P search.store → P (search.store.push s)) :
    P search.store :=
  H.induct_kept (P := fun _ store _ => P store) hstart (fun _ _ _ _ h => h) hpush

end Search

/-! ## What was offered -/

section
variable {R : Type} [Quantity R] [Geodesy R] {ctx : Context R} {rel : State R → State R → Prop}

/-- A relation that a state has to itself and to those that it makes needless, and that it takes
over from those that it replaces without being dominated by them. -/
structure Context.Upholds (ctx : Context R) (rel : State R → State R → Prop) : Prop where
  refl : ∀ {s}, ctx.Reachable s → rel s s
  of_dominates : ∀ {store a b}, ctx.Grown store → ctx.Born store a → ctx.Born store b →
    a.vertex = b.vertex → ctx.dominates ctx.request.dominance store a b = true → rel a b
  replace : ∀ {store a b s}, ctx.Grown store → ctx.Born store a → ctx.Born store b →
    a.vertex = b.vertex → ctx.dominates ctx.request.dominance store a b = true →
    ctx.dominates ctx.request.dominance store b a = false → rel b s → rel a s

/-- What dominance gives rise to among the states of a search, kept up from one to the next. -/
structure Context.Justifies (ctx : Context R) (rel : State R → State R → Prop) : Prop where
  refl : ∀ {s}, ctx.Reachable s → rel s s
  trans : ∀ {a b c}, ctx.Reachable a → ctx.Reachable b → rel a b → rel b c → rel a c
  of_dominates : ∀ {store a b}, ctx.Grown store → ctx.Born store a → ctx.Born store b →
    a.vertex = b.vertex → ctx.dominates ctx.request.dominance store a b = true → rel a b

theorem Context.Justifies.upholds (H : ctx.Justifies rel) : ctx.Upholds rel where
  refl := H.refl
  of_dominates := H.of_dominates
  replace hgrown ha hb hv hdom _ :=
    H.trans (ha.reachable hgrown) (hb.reachable hgrown) (H.of_dominates hgrown ha hb hv hdom)

end

namespace Search

section
variable {R : Type} {rel : State R → State R → Prop} {search next : Search R} {s t : State R}

/-- A state that counts where the given one is stands in the relation to it. -/
def HeldBy (rel : State R → State R → Prop) (search : Search R) (s : State R) : Prop :=
  ∃ i ∈ search.tree.at? s.vertex, ∃ a, search.store.get? i = some a ∧ rel a s

theorem HeldBy.of_eq (H : search.HeldBy rel s) (hstore : next.store = search.store)
    (htree : next.tree = search.tree) : next.HeldBy rel s := by
  obtain ⟨i, hi, a, ha, hrel⟩ := H
  exact ⟨i, htree ▸ hi, a, hstore ▸ ha, hrel⟩

end

variable {R : Type} [Quantity R] [Geodesy R] {ctx : Context R} {rel : State R → State R → Prop}
  {search rest : Search R} {offered : List (State R)} {pending : List (EdgeIndex × State R)}
  {s t a : State R} {i id : StateId} {v : VertexIndex}

/-- A new state takes over what the states that it beats were holding. -/
theorem HeldBy.accept (H : search.HeldBy rel s) (hrel : ctx.Upholds rel)
    (hcons : search.Consistent ctx) (ht : ctx.Born search.store t)
    (hkept : search.tree.rejects ctx search.store t = false) :
    (search.accept ctx t).HeldBy rel s := by
  obtain ⟨i, hi, a, ha, has⟩ := H
  by_cases hbeaten : s.vertex = t.vertex ∧ i ∈ search.tree.beaten ctx search.store t
  · obtain ⟨hv, hbeaten⟩ := hbeaten
    have hav := hcons.kept.vertex_eq hi ha
    obtain ⟨hlabel, b, hb, hdom⟩ := Tree.mem_beaten.1 hbeaten
    cases ha.symm.trans hb
    have hback := Tree.not_dominates_of_not_rejects hkept hlabel ha
    rw [hcons.kept.goesBy] at hdom hback
    refine ⟨search.store.size, Tree.mem_accept_at?.2 (.inr ⟨hv, rfl⟩), t,
      StateStore.get?_push_size, ?_⟩
    exact hrel.replace hcons.grown ht (hcons.grown.born ha) (hv.symm.trans hav.symm) hdom hback has
  · have hkept : s.vertex = t.vertex → i ∉ search.tree.beaten ctx search.store t :=
      fun hv h => hbeaten ⟨hv, h⟩
    exact ⟨i, Tree.mem_accept_at?.2 (.inl ⟨hi, hkept⟩), a, StateStore.get?_push_of_get? ha, has⟩

theorem heldBy_accept_self (hrel : ctx.Upholds rel) (ht : ctx.Reachable t) :
    (search.accept ctx t).HeldBy rel t :=
  ⟨search.store.size, Tree.mem_accept_at?.2 (.inr ⟨rfl, rfl⟩), t, StateStore.get?_push_size,
    hrel.refl ht⟩

/-- What is rejected is held by what it is rejected for. -/
theorem heldBy_of_rejects (hrel : ctx.Upholds rel) (hcons : search.Consistent ctx)
    (ht : ctx.Born search.store t) (h : search.tree.rejects ctx search.store t = true) :
    search.HeldBy rel t := by
  obtain ⟨i, hi, a, ha, hdom⟩ := Tree.rejects_iff.1 h
  rw [hcons.kept.goesBy] at hdom
  exact ⟨i, hi, a, ha, hrel.of_dominates hcons.grown (hcons.grown.born ha) ht
    (hcons.kept.vertex_eq hi ha) hdom⟩

theorem HeldBy.relax (H : search.HeldBy rel s) (hrel : ctx.Upholds rel)
    (hcons : search.Consistent ctx) (ht : ctx.Born search.store t) :
    (search.relax ctx t).HeldBy rel s := by
  rw [relax_eq]
  split
  · exact H
  · exact (H.accept hrel hcons ht (Bool.not_eq_true _ ▸ ‹_›)).of_eq rfl rfl

theorem heldBy_relax_self (hrel : ctx.Upholds rel) (hcons : search.Consistent ctx)
    (ht : ctx.Born search.store t) : (search.relax ctx t).HeldBy rel t := by
  rw [relax_eq]
  split
  · exact heldBy_of_rejects hrel hcons ht ‹_›
  · exact (heldBy_accept_self hrel (ht.reachable hcons.grown)).of_eq rfl rfl

/-- All that was ever offered is held, whatever has become of it. -/
theorem Moment.upheld (H : Moment ctx offered pending search) (hrel : ctx.Upholds rel) :
    ∀ s ∈ offered, search.HeldBy rel s := by
  induction H with
  | start =>
    intro s hs
    cases List.mem_singleton.1 hs
    rw [start_eq]
    exact heldBy_accept_self hrel .origin
  | arrive _ _ hnext hs hf ih =>
    intro s hs'
    rw [settle_of_isFinal hs hf]
    exact (ih s hs').of_eq (next?_rest hnext).1 (next?_rest hnext).2.1
  | @expand _ _ rest id s _ _ hnext _ _ ih =>
    intro t ht
    obtain ⟨events, heq⟩ := noteAll_eq (rest.note (.visited s)) (ctx.successors id s)
    rw [heq]
    exact (ih t ht).of_eq (next?_rest hnext).1 (next?_rest hnext).2.1
  | offer H ih =>
    intro t ht
    have hborn := H.born_of_mem_pending List.mem_cons_self
    rcases List.mem_append.1 ht with ht | ht
    · exact (ih t ht).relax hrel H.consistent hborn
    · cases List.mem_singleton.1 ht
      exact heldBy_relax_self hrel H.consistent hborn

theorem Moment.heldBy (H : Moment ctx offered pending search) (hrel : ctx.Justifies rel) :
    ∀ s ∈ offered, search.HeldBy rel s := H.upheld hrel.upholds

/-! ## What counts -/

/-- A state was gone on from: it has not arrived, and its successors were offered or will be. -/
def GoneOn (ctx : Context R) (offered : List (State R)) (pending : List (EdgeIndex × State R))
    (i : StateId) (a : State R) : Prop :=
  ctx.isFinal a = false ∧ ∀ p ∈ ctx.successors i a, p.2 ∈ offered ∨ p ∈ pending

/-- A state waits, was found, or was gone on from. -/
def Settled (search : Search R) (ctx : Context R) (offered : List (State R))
    (pending : List (EdgeIndex × State R)) (i : StateId) (a : State R) : Prop :=
  i ∈ search.queue.ids ∨ i ∈ search.found ∨ GoneOn ctx offered pending i a

omit [Geodesy R] in
theorem GoneOn.offer {e : EdgeIndex} (H : GoneOn ctx offered ((e, s) :: pending) i a) :
    GoneOn ctx (offered ++ [s]) pending i a := by
  refine ⟨H.1, fun p hp => ?_⟩
  rcases H.2 p hp with hp | hp
  · exact .inl (List.mem_append_left _ hp)
  · rcases List.mem_cons.1 hp with rfl | hp
    · exact .inl (List.mem_append_right _ List.mem_cons_self)
    · exact .inr hp

omit [Geodesy R] in
/-- Of the states that count and are settled, only the one that is served is not any more. -/
theorem Settled.next? (H : search.Settled ctx offered pending i a)
    (hkept : search.tree.Kept ctx.request.dominance search.store) (hi : i ∈ search.tree.at? v)
    (h : search.next? = some (id, rest)) :
    i = id ∨ rest.Settled ctx offered pending i a := by
  obtain ⟨dropped, w, behind, hwaiting, hdropped, -, rfl, rfl⟩ := next?_eq_some_iff.1 h
  rcases H with hwaits | h
  · rw [Queue.ids, hwaiting, List.map_append, List.mem_append, List.map_cons,
      List.mem_cons] at hwaits
    rcases hwaits with hwaits | rfl | hwaits
    · -- What was passed over is pruned.
      obtain ⟨x, hx, rfl⟩ := List.mem_map.1 hwaits
      have hcounts := hkept.counts hi
      rw [hdropped x hx] at hcounts
      cases hcounts
    · exact .inl rfl
    · exact .inr (.inl hwaits)
  · exact .inr (.inr h)

/-- A state that counts waits, was found, or was gone on from. -/
theorem Moment.settled (H : Moment ctx offered pending search) (hi : i ∈ search.tree.at? v)
    (ha : search.store.get? i = some a) : search.Settled ctx offered pending i a := by
  induction H with
  | start =>
    obtain ⟨rfl, -⟩ := get?_start_iff.1 ha
    exact .inl (by simp [start_ids])
  | arrive H _ hnext hs hf ih =>
    rw [settle_of_isFinal hs hf] at hi ha ⊢
    obtain ⟨hstore, htree, -⟩ := next?_rest hnext
    rw [note, htree] at hi
    rw [note, hstore] at ha
    rcases (ih hi ha).next? H.consistent.kept hi hnext with rfl | h
    · exact .inr (.inl (List.mem_append_right _ List.mem_cons_self))
    · exact h.imp_right (Or.imp_left (List.mem_append_left _))
  | @expand offered _ rest id s H _ hnext hs hf ih =>
    obtain ⟨events, heq⟩ := noteAll_eq (rest.note (.visited s)) (ctx.successors id s)
    rw [heq] at hi ha ⊢
    obtain ⟨hstore, htree, -⟩ := next?_rest hnext
    rw [note, htree] at hi
    rw [note, hstore] at ha
    rcases (ih hi ha).next? H.consistent.kept hi hnext with rfl | h
    · rw [hstore] at hs
      cases hs.symm.trans ha
      exact .inr (.inr ⟨hf, fun p hp => .inr hp⟩)
    · refine h.imp_right (Or.imp_right fun h => ⟨h.1, fun p hp => .inl ?_⟩)
      exact (h.2 p hp).resolve_right List.not_mem_nil
  | @offer offered search e s pending H ih =>
    rw [relax_eq] at hi ha ⊢
    generalize search.tree.rejects ctx search.store s = rejected at hi ha ⊢
    cases rejected with
    | true =>
      rw [if_pos rfl] at hi ha ⊢
      exact (ih hi ha).imp_right (Or.imp_right GoneOn.offer)
    | false =>
      rw [if_neg Bool.false_ne_true] at hi ha ⊢
      rcases Tree.mem_accept_at?.1 hi with ⟨hold, -⟩ | ⟨-, rfl⟩
      · have ha := StateStore.get?_of_push (H.consistent.kept.lt_size hold) ha
        rcases ih hold ha with h | h
        · exact .inl (Queue.mem_ids_push.2 (.inr h))
        · exact .inr (h.imp_right GoneOn.offer)
      · exact .inl (Queue.mem_ids_push.2 (.inl rfl))

/-! ## Between two expansions -/

/-- A state has not arrived, and all that follows it is held. -/
def Closed (search : Search R) (ctx : Context R) (rel : State R → State R → Prop) (i : StateId)
    (a : State R) : Prop :=
  ctx.isFinal a = false ∧ ∀ p ∈ ctx.successors i a, search.HeldBy rel p.2

theorem Moment.initial_mem (H : Moment ctx offered pending search) :
    .initial ctx.origin ∈ offered := by
  induction H with
  | start => exact List.mem_cons_self
  | arrive _ _ _ _ _ ih | expand _ _ _ _ _ ih => exact ih
  | offer _ ih => exact List.mem_append_left _ ih

theorem Reached.heldBy_origin (H : search.Reached ctx) (hrel : ctx.Justifies rel) :
    search.HeldBy rel (.initial ctx.origin) := by
  obtain ⟨offered, hmoment⟩ := H.moment
  exact hmoment.heldBy hrel _ hmoment.initial_mem

theorem Reached.settled (H : search.Reached ctx) (hrel : ctx.Justifies rel)
    (hi : i ∈ search.tree.at? v) (ha : search.store.get? i = some a) :
    i ∈ search.queue.ids ∨ i ∈ search.found ∨ search.Closed ctx rel i a := by
  obtain ⟨offered, hmoment⟩ := H.moment
  refine (hmoment.settled hi ha).imp_right (Or.imp_right fun h => ⟨h.1, fun p hp => ?_⟩)
  exact hmoment.heldBy hrel _ ((h.2 p hp).resolve_right List.not_mem_nil)

end Search

end TripPlanner
