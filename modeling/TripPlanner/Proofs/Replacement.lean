import TripPlanner.Proofs.Domination

/-!
# Replacements

What a search by weight alone may hold in place of a state (`Context.Replaces`): one like it, or one
that outdoes it. A state that replaces another one at the same weight can go where that one can go.
Whether it arrives there at the same weight is another matter, for dominance does not look at the
street one came over, and the cost of a turn depends on it. Ties agree (`Context.TiesAgree`) where
it does.
-/

namespace TripPlanner

/-- A search goes on alike from states that came over the same edge in the same situation, at the
same weight. -/
structure State.Alike {R : Type} (a b : State R) : Prop where
  tag : a.tag = b.tag
  weight : a.weight = b.weight

namespace State.Alike

theorem refl {R : Type} (a : State R) : a.Alike a := ⟨rfl, rfl⟩

theorem trans {R : Type} {a b c : State R} (H : a.Alike b) (H' : b.Alike c) : a.Alike c :=
  ⟨H.tag.trans H'.tag, H.weight.trans H'.weight⟩

variable {R : Type} [Quantity R] {ctx : Context R} {a b a' b' : State R} {e : EdgeIndex}

omit [Quantity R] in
theorem covers (H : a.Alike b) : ctx.Covers a b := by
  obtain ⟨hv, hback, hplane⟩ := State.tag_eq_iff.1 H.tag
  exact .of_back hv hback hplane

theorem follows (H : a.Alike b) (ha : ctx.Follows a e a') (hb : ctx.Follows b e b') :
    a'.Alike b' := by
  refine ⟨State.tag_eq_iff.2 (H.covers.follows_agree ha hb), ?_⟩
  obtain ⟨hv, hback, -⟩ := State.tag_eq_iff.1 H.tag
  obtain ⟨id, edge, move, hedge, -, hmove, rfl⟩ := ha.cases
  obtain ⟨id', edge', move', hedge', -, hmove', rfl⟩ := hb.cases
  obtain rfl : edge = edge' := Option.some.inj (hedge.symm.trans hedge')
  obtain ⟨hopen, hmoves⟩ := Context.move?_eq_some_iff.1 hmove'
  obtain ⟨other, hother, -, hcost⟩ := H.covers.moves hmoves
  obtain rfl : move = other := Option.some.inj (hmove.symm.trans (hother.move? hopen))
  have hcost' : move.cost = move'.cost := by
    rcases hcost with hcost | ⟨street, mode, -, rfl, rfl⟩
    · exact hcost
    · simp only [Context.alongStreet, Context.turnDelay, State.backStreet?, hv, hback]
  exact congrArg₂ (· + ·) H.weight hcost'

end State.Alike

namespace Context

variable {R : Type} [Field R] [LinearOrder R] [IsStrictOrderedRing R] [FloorRing R] [Geodesy R]
  {ctx : Context R} {a b c a' b' : State R} {e : EdgeIndex}

theorem Outdoes.weight_le (H : ctx.Outdoes a b) (hrule : ctx.request.dominance = .minimumWeight) :
    a.weight ≤ b.weight := by
  have hcost := H.cost
  rwa [hrule, DominanceRule.noWorse_iff] at hcost

theorem Outdoes.congr (H : ctx.Outdoes a b) (hrule : ctx.request.dominance = .minimumWeight)
    (ha' : ctx.Reachable a') (ha : ctx.Reachable a) (hfirst : a'.Alike a) (hsecond : b.Alike b') :
    ctx.Outdoes a' b' := by
  obtain ⟨hv, hback, hplane⟩ := State.tag_eq_iff.1 hfirst.tag
  obtain ⟨hv', hback', hplane'⟩ := State.tag_eq_iff.1 hsecond.tag
  have hvia := State.arrivedVia_congr hback
  have hvia' := State.arrivedVia_congr hback'
  obtain ⟨haboard, htransfer, htimed, htimed'⟩ := onSameSide_iff.1 H.side
  refine ⟨hv.trans (H.vertex.trans hv'), onSameSide_iff.2 ⟨?_, ?_, ?_, ?_⟩,
    hplane.trans (H.plane.trans hplane'), ?_, ?_⟩
  · rw [hplane, haboard, hplane']
  · rw [hvia, htransfer, hvia']
  · rw [hvia, htimed]
  · rw [← hvia', htimed']
  · have hfuture := H.future
    rw [Bool.eq_false_iff, ne_eq, futureDiffers_iff] at hfuture ⊢
    rwa [hback, ← hback', isSpecial_congr ha' ha hv hplane hback]
  · rw [hrule, DominanceRule.noWorse_iff, hfirst.weight, ← hsecond.weight]
    exact H.weight_le hrule

/-- What a search may hold in place of a state. Where a timed transfer was made, nothing else than
its like is. -/
inductive Replaces (ctx : Context R) (a b : State R) : Prop where
  | alike : a.Alike b → Replaces ctx a b
  | outdoes : ctx.Outdoes a b → Replaces ctx a b

namespace Replaces

theorem covers (H : ctx.Replaces a b) : ctx.Covers a b := by
  cases H with
  | alike H => exact H.covers
  | outdoes H =>
    have hdom : ctx.dominates ctx.request.dominance .empty a b = true := H.dominates
    exact .of_dominates H.vertex H.plane hdom

theorem trans_outdoes (H : ctx.Replaces a b) (hrule : ctx.request.dominance = .minimumWeight)
    (ha : ctx.Reachable a) (hb : ctx.Reachable b) (H' : ctx.Outdoes b c) : ctx.Outdoes a c := by
  cases H with
  | alike H => exact H'.congr hrule ha hb H (.refl _)
  | outdoes H => exact H.trans (by rw [hrule]; decide) ha hb H'

theorem trans (H : ctx.Replaces a b) (hrule : ctx.request.dominance = .minimumWeight)
    (ha : ctx.Reachable a) (hb : ctx.Reachable b) (H' : ctx.Replaces b c) : ctx.Replaces a c := by
  cases H' with
  | outdoes H' => exact .outdoes (H.trans_outdoes hrule ha hb H')
  | alike H' =>
    cases H with
    | alike H => exact .alike (H.trans H')
    | outdoes H => exact .outdoes (H.congr hrule ha ha (.refl _) H')

end Replaces

/-- States that tie do so one edge further: where one of them outdoes the other at the same weight,
an edge that both can follow leads to the same weight. -/
def TiesAgree (ctx : Context R) : Prop :=
  ∀ {a b e a' b'}, ctx.Reachable a → ctx.Reachable b → ctx.Outdoes a b → a.weight = b.weight →
    ctx.Follows a e a' → ctx.Follows b e b' → a'.weight = b'.weight

/-- What replaces a state at the same weight goes on to replace what follows it. -/
theorem Replaces.follows (H : ctx.Replaces a b) (hties : ctx.TiesAgree) (ha : ctx.Reachable a)
    (hb : ctx.Reachable b) (hweight : a.weight = b.weight) (h : ctx.Follows b e b') (i : StateId) :
    ∃ a', (e, a') ∈ ctx.successors i a ∧ a'.Alike b' := by
  obtain ⟨_, hfollows, -⟩ := H.covers.follows h
  obtain ⟨a', hmem, -⟩ := hfollows.mem_successors i
  have h' := Follows.of_mem_successors hmem
  refine ⟨a', hmem, State.tag_eq_iff.2 (H.covers.follows_agree h' h), ?_⟩
  cases H with
  | alike H => exact (H.follows h' h).weight
  | outdoes H => exact hties ha hb H hweight h' h

end Context

/-! ## Ties on small networks -/

/-- The state as one of no store. -/
def State.orphan {R : Type} (s : State R) : State R := { s with parent := none }

namespace Context

section
variable {R : Type} [Quantity R] {ctx : Context R} {s : State R} {states : List (State R)}

/-- The states at most so many edges from the origin. -/
def within (ctx : Context R) : Nat → List (State R)
  | 0 => [.initial ctx.origin]
  | n + 1 => .initial ctx.origin ::
    (ctx.within n).flatMap fun a => (ctx.successors 0 a).map fun p => p.2.orphan

/-- The list holds the start of the trip and all that follows what it holds. -/
structure Encloses (ctx : Context R) (states : List (State R)) : Prop where
  origin : .initial ctx.origin ∈ states
  step : ∀ a ∈ states, ∀ p ∈ ctx.successors 0 a, p.2.orphan ∈ states

instance [DecidableEq R] : Decidable (ctx.Encloses states) :=
  decidable_of_iff (.initial ctx.origin ∈ states ∧
      ∀ a ∈ states, ∀ p ∈ ctx.successors 0 a, p.2.orphan ∈ states)
    ⟨fun ⟨horigin, hstep⟩ => ⟨horigin, hstep⟩, fun ⟨horigin, hstep⟩ => ⟨horigin, hstep⟩⟩

theorem Encloses.orphan_mem (H : ctx.Encloses states) (hs : ctx.Reachable s) :
    s.orphan ∈ states := by
  induction hs with
  | origin => exact H.origin
  | @step a b e _ h ih =>
    obtain ⟨id, edge, move, hedge, hsource, hmove, rfl⟩ := h.cases
    have hmove' : ctx.move? a.orphan e edge = some move := hmove
    exact H.step _ ih _ (mem_successors_of_move? hedge hsource hmove' 0)

end

/-- Ties agree where states at one vertex that tie came over the same edge in the same situation. -/
theorem Encloses.tiesAgree {R : Type} [Field R] [LinearOrder R] [IsStrictOrderedRing R]
    [FloorRing R] [Geodesy R] {ctx : Context R} (states : List (State R))
    (H : ctx.Encloses states)
    (htags : ∀ a ∈ states, ∀ b ∈ states, a.vertex = b.vertex → a.weight = b.weight →
      a.tag = b.tag) : ctx.TiesAgree := by
  intro a b e a' b' ha hb houtdoes hweight hfollows hfollows'
  have htag : a.orphan.tag = b.orphan.tag :=
    htags _ (H.orphan_mem ha) _ (H.orphan_mem hb) houtdoes.vertex hweight
  have halike : a.Alike b := ⟨htag, hweight⟩
  exact (halike.follows hfollows hfollows').weight

end Context

end TripPlanner
