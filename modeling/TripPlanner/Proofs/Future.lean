import TripPlanner.Proofs.Moves
import TripPlanner.Proofs.Placement

/-!
# Futures

`Context.Covers a b` compares what a state reads of its past when it goes on: where it is and in
which situation, whether a transfer was just made, and which turn restrictions hang off the street
it came over. What can follow `b` can then follow `a` (`Covers.follows`), and one edge later the
two agree (`Covers.chain`). Dominance between states on one plane is of this kind
(`Covers.of_dominates`), whatever rule compares their costs.
-/

namespace TripPlanner

namespace Context

section
variable {R : Type}

/-- Nothing in the past of `a` keeps it from going where `b` can go. -/
structure Covers (ctx : Context R) (a b : State R) : Prop where
  vertex : a.vertex = b.vertex
  plane : a.plane = b.plane
  transfer : a.arrivedVia .simpleTransfer = b.arrivedVia .simpleTransfer
  street : a.backStreet? = b.backStreet? ∨
    ∀ e, a.backStreet? = some e → ctx.graph.restrictionsAfter e = []

variable {ctx : Context R} {a b c : State R}

theorem Covers.refl (a : State R) : ctx.Covers a a := ⟨rfl, rfl, rfl, .inl rfl⟩

theorem Covers.trans (H : ctx.Covers a b) (H' : ctx.Covers b c) : ctx.Covers a c where
  vertex := H.vertex.trans H'.vertex
  plane := H.plane.trans H'.plane
  transfer := H.transfer.trans H'.transfer
  street := by
    rcases H.street with heq | hfree
    · rw [heq]
      exact H'.street
    · exact .inr hfree

/-- What the next state reads of its past is the edge it came over and its situation. -/
theorem Covers.of_back (hv : a.vertex = b.vertex) (hb : a.back = b.back) (hp : a.plane = b.plane) :
    ctx.Covers a b :=
  ⟨hv, hp, by simp [State.arrivedVia, hb], .inl (by simp [State.backStreet?, hb])⟩

theorem Covers.isFinal (H : ctx.Covers a b) : ctx.isFinal a = ctx.isFinal b := by
  simp [Context.isFinal, H.vertex, H.plane]

theorem Covers.streetMode (H : ctx.Covers a b) (request : Request R) :
    a.streetMode request = b.streetMode request := by
  simp [State.streetMode, H.plane]

theorem Covers.isTurnForbidden {e : EdgeIndex} {mode : Mode} (H : ctx.Covers a b)
    (h : ctx.isTurnForbidden b e mode = false) : ctx.isTurnForbidden a e mode = false := by
  rcases H.street with heq | hfree
  · simpa [Context.isTurnForbidden, heq] using h
  · cases hback : a.backStreet? with
    | none => simp [Context.isTurnForbidden, hback]
    | some source => simp [Context.isTurnForbidden, hback, hfree source hback]

end

/-! ## One edge -/

variable {R : Type} [Quantity R] {ctx : Context R} {a b a' b' : State R} {e : EdgeIndex}
  {es : List EdgeIndex} {edge : Edge R} {move : Move R}

omit [Quantity R] in
theorem Covers.modeOnStreet? {street : Street R} (H : ctx.Covers a b) :
    ctx.modeOnStreet? a street = ctx.modeOnStreet? b street := by
  rw [Context.modeOnStreet?, Context.modeOnStreet?, H.streetMode]

/-- The moves are alike, and only along a street may they differ in cost. -/
theorem Covers.moves (H : ctx.Covers a b) (h : ctx.Moves b e edge move) :
    ∃ move', ctx.Moves a e edge move' ∧ move'.plane = move.plane ∧ (move'.cost = move.cost ∨
      ∃ street mode, edge.kind = .street street ∧ move' = ctx.alongStreet a street mode ∧
        move = ctx.alongStreet b street mode) := by
  have hmode := H.streetMode ctx.request
  have hplane := H.plane
  -- Beyond the situation, only streets and transfers read anything of the past.
  cases h with
  | street hkind hstreet hturn =>
    exact ⟨_, .street hkind (H.modeOnStreet?.trans hstreet) (H.isTurnForbidden hturn), hplane,
      .inr ⟨_, _, hkind, rfl, rfl⟩⟩
  | link hkind hpark =>
    refine ⟨_, .link hkind fun h => hpark (hmode.symm.trans h), ?_⟩
    rw [hmode, hplane]
    exact ⟨rfl, .inl rfl⟩
  | parkCar hkind hride hcar hfree =>
    exact ⟨_, .parkCar hkind hride (hmode.trans hcar) hfree, by rw [hplane], .inl rfl⟩
  | rentBike hkind hrental hrenting hwalk hstation husable =>
    exact ⟨_, .rentBike hkind hrental (hplane ▸ hrenting) (hmode.trans hwalk) hstation husable,
      by rw [hplane], .inl rfl⟩
  | dropOffBike hkind hrented hstation hshared =>
    exact ⟨_, .dropOffBike hkind (hplane ▸ hrented) hstation hshared, by rw [hplane], .inl rfl⟩
  | parkBike hkind hride hparked hbicycle =>
    exact ⟨_, .parkBike hkind hride (hplane ▸ hparked) (hmode.trans hbicycle), by rw [hplane],
      .inl rfl⟩
  | board hkind htransit hwalk =>
    exact ⟨_, .board hkind htransit (hmode.trans hwalk), by rw [hplane], .inl rfl⟩
  | hop hkind haboard => exact ⟨_, .hop hkind (hplane ▸ haboard), hplane, .inl rfl⟩
  | alight hkind => exact ⟨_, .alight hkind, hplane, .inl rfl⟩
  | transfer hkind hvia hwalk =>
    refine ⟨_, .transfer hkind (H.transfer.trans hvia) (hmode.trans hwalk), ?_⟩
    rw [hplane]
    exact ⟨rfl, .inl rfl⟩
  | timedTransfer hkind => exact ⟨_, .timedTransfer hkind, hplane, .inl rfl⟩

theorem Covers.move? (H : ctx.Covers a b) (h : ctx.move? b e edge = some move) :
    ∃ move', ctx.move? a e edge = some move' ∧ move'.plane = move.plane := by
  obtain ⟨hopen, hmoves⟩ := move?_eq_some_iff.1 h
  obtain ⟨move', hmoves', hplane, -⟩ := H.moves hmoves
  exact ⟨move', hmoves'.move? hopen, hplane⟩

/-- Where `b` can go `a` can go, and arrives there over the same edge in the same situation. -/
theorem Covers.follows (H : ctx.Covers a b) (h : ctx.Follows b e b') :
    ∃ a', ctx.Follows a e a' ∧ a'.vertex = b'.vertex ∧ a'.back = b'.back ∧
      a'.plane = b'.plane := by
  obtain ⟨id, edge, move, hedge, hsource, hmove, rfl⟩ := h.cases
  obtain ⟨move', hmove', hplane⟩ := H.move? hmove
  have ht : ctx.traverse id a e edge = some (a.after id e edge move') :=
    traverse_eq_some_iff.2 ⟨move', hmove', rfl⟩
  exact ⟨_, ⟨id, edge, hedge, hsource.trans H.vertex.symm, ht⟩, rfl, rfl, hplane⟩

/-- The way to the next state decides where it is, its back edge and its situation. -/
theorem Covers.follows_agree (H : ctx.Covers a b) (ha : ctx.Follows a e a')
    (hb : ctx.Follows b e b') :
    a'.vertex = b'.vertex ∧ a'.back = b'.back ∧ a'.plane = b'.plane := by
  obtain ⟨id, edge, move, hedge, -, hmove, rfl⟩ := ha.cases
  obtain ⟨id', edge', move', hedge', -, hmove', rfl⟩ := hb.cases
  obtain rfl : edge = edge' := Option.some.inj (hedge.symm.trans hedge')
  obtain ⟨other, hother, hplane⟩ := H.move? hmove'
  obtain rfl : move = other := Option.some.inj (hmove.symm.trans hother)
  exact ⟨rfl, rfl, hplane⟩

/-! ## Sequences of edges -/

theorem Covers.chain (H : ctx.Covers a b) (h : ctx.Chain b es b') :
    ∃ a', ctx.Chain a es a' ∧ ctx.Covers a' b' := by
  induction h generalizing a with
  | nil => exact ⟨a, .nil, H⟩
  | cons hstep _ ih =>
    obtain ⟨next, hnext, hv, hb, hp⟩ := H.follows hstep
    obtain ⟨a', hchain, hcovers⟩ := ih (.of_back hv hb hp)
    exact ⟨a', .cons hnext hchain, hcovers⟩

theorem Covers.chain_agree (H : ctx.Covers a b) (ha : ctx.Chain a es a') (hb : ctx.Chain b es b')
    (hne : es ≠ []) : a'.vertex = b'.vertex ∧ a'.back = b'.back ∧ a'.plane = b'.plane := by
  induction hb generalizing a with
  | nil => exact absurd rfl hne
  | @cons b b₁ b' e es hstep htail ih =>
    cases ha with
    | cons hstep' htail' =>
      obtain ⟨hv, hback, hp⟩ := H.follows_agree hstep' hstep
      cases es with
      | nil =>
        cases htail
        cases htail'
        exact ⟨hv, hback, hp⟩
      | cons _ _ => exact ih (.of_back hv hback hp) htail' (List.cons_ne_nil _ _)

/-! ## Dominance -/

/-- Whatever follows `b` follows `a` as well, and the ways lead to the same places and situations
from the first edge on. -/
structure KeepsFuture (ctx : Context R) (a b : State R) : Prop where
  final : ctx.isFinal a = ctx.isFinal b
  chain : ∀ {es b'}, ctx.Chain b es b' → ∃ a', ctx.Chain a es a'
  agree : ∀ {es a' b'}, es ≠ [] → ctx.Chain a es a' → ctx.Chain b es b' →
    a'.vertex = b'.vertex ∧ a'.back = b'.back ∧ a'.plane = b'.plane ∧
      ctx.isFinal a' = ctx.isFinal b'

theorem Covers.keepsFuture (H : ctx.Covers a b) : ctx.KeepsFuture a b where
  final := H.isFinal
  chain h := by
    obtain ⟨a', hchain, -⟩ := H.chain h
    exact ⟨a', hchain⟩
  agree hne ha hb := by
    obtain ⟨hv, hback, hp⟩ := H.chain_agree ha hb hne
    have hcovers : ctx.Covers _ _ := .of_back hv hback hp
    exact ⟨hv, hback, hp, hcovers.isFinal⟩

variable [Geodesy R] {rule : DominanceRule} {store : StateStore R}

omit [Geodesy R] [Quantity R] in
theorem onSameSide_iff : onSameSide a b = true ↔
    a.plane.everBoarded = b.plane.everBoarded ∧
      a.arrivedVia .simpleTransfer = b.arrivedVia .simpleTransfer ∧
      a.arrivedVia .timedTransfer = false ∧ b.arrivedVia .timedTransfer = false := by
  simp [onSameSide, and_assoc]

theorem dominates_iff : ctx.dominates rule store a b = true ↔ onSameSide a b = true ∧
    (boardedAfterChange store a b = true ∨
      a.plane = b.plane ∧ ctx.futureDiffers a b = false ∧ rule.noWorse a b = true) := by
  simp [dominates, and_assoc]

omit [Geodesy R] [Quantity R] in
theorem onSameSide_comm : onSameSide a b = true ↔ onSameSide b a = true := by
  rw [onSameSide_iff, onSameSide_iff]
  constructor <;> exact fun h => ⟨h.1.symm, h.2.1.symm, h.2.2.2, h.2.2.1⟩

omit [Geodesy R] [Quantity R] in
theorem boardedAfterChange_iff : boardedAfterChange store a b = true ↔
    a.arrivedVia .board = true ∧ b.arrivedVia .board = true ∧
      ∃ parent, store.parent? a = some parent ∧ parent.arrivedVia .timedTransfer = true := by
  simp [boardedAfterChange, Option.any_eq_true, and_assoc]

theorem street_of_not_futureDiffers (h : ctx.futureDiffers a b = false) :
    a.backStreet? = b.backStreet? ∨
      ∀ e, a.backStreet? = some e → ctx.graph.restrictionsAfter e = [] := by
  by_cases hback : a.back = b.back
  · exact .inl (by simp [State.backStreet?, hback])
  · refine .inr fun e he => ?_
    have ha : a.back = some ⟨e, .street⟩ := State.backStreet?_eq_some_iff.1 he
    rw [ha] at hback
    simp only [futureDiffers, ha, decide_true, Bool.true_and, bne_iff_ne.2 hback,
      Bool.or_eq_false_iff, Bool.not_eq_false'] at h
    exact List.isEmpty_iff.1 h.1

/-- On one plane a state that dominates another covers it. -/
theorem Covers.of_dominates (hv : a.vertex = b.vertex) (hp : a.plane = b.plane)
    (h : ctx.dominates rule store a b = true) : ctx.Covers a b := by
  obtain ⟨hside, hwhy⟩ := dominates_iff.1 h
  refine ⟨hv, hp, (onSameSide_iff.1 hside).2.1, ?_⟩
  rcases hwhy with hboarded | ⟨-, hfuture, -⟩
  · have hboard := (boardedAfterChange_iff.1 hboarded).1
    refine .inr fun e he => ?_
    rw [State.backStreet?_eq_none_of_arrivedVia hboard (by decide)] at he
    cases he
  · exact street_of_not_futureDiffers hfuture

/-- Dominance on one plane never takes away a future, whatever it compares. -/
theorem keepsFuture_of_dominates (hv : a.vertex = b.vertex) (hp : a.plane = b.plane)
    (h : ctx.dominates rule store a b = true) : ctx.KeepsFuture a b :=
  (Covers.of_dominates hv hp h).keepsFuture

/-- The link to the corner makes the longer street there needless, restricted as it is. -/
theorem keepsFuture_at_corner :
    let byLink : State ℚ := ⟨1, 1354, 677, 900, some 0, some ⟨2, .other⟩, some .walk, .initial⟩
    let byStreet : State ℚ := ⟨1, 1504, 752, 1000, some 0, some ⟨0, .street⟩, some .walk, .initial⟩
    Corners.there.dominates .pareto .empty byLink byStreet = true ∧
      Corners.there.KeepsFuture byLink byStreet :=
  have h := by decide +kernel
  ⟨h, keepsFuture_of_dominates rfl rfl h⟩

end Context

end TripPlanner
