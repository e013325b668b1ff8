import Mathlib.Data.List.Induction
import TripPlanner.Proofs.Exact
import TripPlanner.Proofs.Regulation
import TripPlanner.Proofs.Upkeep

/-!
# Mutations

All that a graph goes through, starting from nothing: additions and removals, whether they succeed
or fail, and what feeds have the writer do (`Mutation`). Graphs that are made so have evolved
(`Graph.evolved_made`). Their turn restrictions bind streets that are there and meet, and an edge
that comes is bound by none, whatever index it gets (`Graph.binds_made`).
-/

namespace TripPlanner

/-- What is done to a graph. -/
inductive Mutation (R : Type) where
  | addVertex (v : Vertex R)
  | removeVertex (v : VertexIndex)
  | addEdge (source target : VertexIndex) (kind : EdgeKind R)
  | addStreet (source target : VertexIndex) (way : Int) (permits : ModeSet)
  | addRestriction (restriction : TurnRestriction)
  | modifyServices (f : Services R → Services R)
  | turn (turn : Turn R)

namespace Mutation

variable {R : Type}

/-- The graph that a result leaves behind: what fails changes nothing. -/
def outcome (g : Graph R) : Except (Error R) (Graph R) → Graph R
  | .ok next => next
  | .error _ => g

def run [Quantity R] [Geodesy R] (g : Graph R) : Mutation R → Graph R
  | .addVertex v => (g.addVertex v).2
  | .removeVertex v => (g.removeVertex v).2
  | .addEdge source target kind => outcome g ((g.addEdge source target kind).map Prod.snd)
  | .addStreet source target way permits =>
    outcome g ((g.addStreet source target way permits).map Prod.snd)
  | .addRestriction restriction => outcome g (g.addRestriction restriction)
  | .modifyServices f => g.modifyServices f
  | .turn t => t.unit g

end Mutation

namespace Graph

variable {R : Type} [Quantity R] {own : VertexIndex → Prop} {g next : Graph R}
  {source target : VertexIndex} {kind : EdgeKind R} {e k : EdgeIndex} {edge : Edge R}
  {restriction : TurnRestriction}

/-! ## What becomes of streets -/

/-- No street comes by upkeep. -/
theorem Upkeep.edge?_of_street (h : Upkeep own g next) (he : next.edge? e = some edge)
    (hstreet : edge.street?.isSome = true) : g.edge? e = some edge := by
  induction h with
  | refl => exact he
  | tail _ h ih =>
    apply ih
    cases h with
    | addVertex | modifyServices => exact he
    | removeVertex => exact (edge?_removeVertex_iff.1 he).1
    | connect _ haside =>
      rw [edge?_connect] at he
      split at he
      · cases he
        rw [Edge.street?, haside.1] at hstreet
        cases hstreet
      · exact he

omit [Quantity R] in
theorem Regulated.binds_of_mem (H : g.Regulated) (hmem : restriction ∈ g.restrictionsAfter k) :
    g.Binds k restriction := by
  unfold restrictionsAfter at hmem
  cases hget : g.restrictions.get? k with
  | none =>
    rw [hget] at hmem
    cases hmem
  | some restrictions =>
    rw [hget] at hmem
    exact H.binds hget restriction hmem

omit [Quantity R] in
/-- What a restriction mentions is a street that is there. -/
theorem Regulated.exists_street (H : g.Regulated) (hmem : restriction ∈ g.restrictionsAfter k)
    (hpart : restriction.source = e ∨ restriction.target = e) :
    ∃ edge, g.edge? e = some edge ∧ edge.street?.isSome = true := by
  obtain ⟨-, first, second, hfirst, hsecond, hstreet, hstreet', -⟩ := H.binds_of_mem hmem
  rcases hpart with rfl | rfl
  · exact ⟨first, hfirst, hstreet⟩
  · exact ⟨second, hsecond, hstreet'⟩

/-! ## One mutation -/

/-- What a mutation does to vertices, edges and restrictions: a change that adds a vertex, an edge or
a restriction or removes a vertex, upkeep of its own by a feed, or nothing. -/
inductive Mutates (g : Graph R) : Graph R → Prop where
  | addVertex (v : Vertex R) : Mutates g (g.addVertex v).2
  | removeVertex (v : VertexIndex) : Mutates g (g.removeVertex v).2
  | connect {source target : VertexIndex} (kind : EdgeKind R) :
      g.vertices.contains source = true → g.vertices.contains target = true →
      Mutates g (g.connect source target kind).2
  | addRestriction {next : Graph R} {restriction : TurnRestriction} :
      g.addRestriction restriction = .ok next → Mutates g next
  | upkeep {next : Graph R} : Upkeep (fun _ => True) g next → Mutates g next
  | services (services : Services R) : Mutates g { g with services := services }

theorem Mutates.addEdge (g : Graph R) (source target : VertexIndex) (kind : EdgeKind R) :
    g.Mutates (Mutation.outcome g ((g.addEdge source target kind).map Prod.snd)) := by
  cases h : g.addEdge source target kind with
  | error => exact .upkeep .refl
  | ok result =>
    obtain ⟨e, next⟩ := result
    obtain ⟨hsource, htarget, rfl⟩ := eq_of_addEdge h
    exact .connect kind hsource htarget

theorem Mutates.evolved (h : g.Mutates next) (H : g.Evolved) : next.Evolved := by
  cases h with
  | addVertex v => exact H.change (.addVertex g v)
  | removeVertex v => exact H.change (.removeVertex g v)
  | connect kind hsource htarget => exact H.change (.connect kind hsource htarget)
  | addRestriction h => exact H.change (.addRestriction h)
  | upkeep h => exact H.changes h.changes
  | services services => exact H.modifyServices fun _ => services

/-- Mutations do not count as writer units. -/
theorem Mutates.version (h : g.Mutates next) : next.version = g.version := by
  cases h with
  | addVertex | removeVertex | connect | services => rfl
  | addRestriction h =>
    obtain ⟨restrictions, rfl⟩ := eq_of_addRestriction h
    rfl
  | upkeep h => exact h.version

/-- An edge that comes is mentioned by no restriction. -/
theorem Mutates.ne_of_comes (h : g.Mutates next) (H : g.Regulated) (hnext : next.Regulated)
    (he : next.edge? e = some edge) (hcomes : g.edge? e ≠ some edge)
    (hmem : restriction ∈ next.restrictionsAfter k) :
    restriction.source ≠ e ∧ restriction.target ≠ e := by
  rw [← not_or]
  intro hpart
  cases h with
  | addVertex | services => exact hcomes he
  | removeVertex => exact hcomes (edge?_removeVertex_iff.1 he).1
  | addRestriction h =>
    obtain ⟨restrictions, rfl⟩ := eq_of_addRestriction h
    exact hcomes he
  | connect =>
    rw [edge?_connect] at he
    split at he
    · -- The new edge has an index under which there was none.
      rename_i hnew
      obtain ⟨old, hold, -⟩ := H.exists_street hmem hpart
      subst hnew
      cases (Arena.get?_next g.edges).symm.trans hold
    · exact hcomes he
  | upkeep h =>
    obtain ⟨street, hthere, hstreet⟩ := hnext.exists_street hmem hpart
    cases he.symm.trans hthere
    exact hcomes (h.edge?_of_street he hstreet)

section
variable [Geodesy R] {m : Mutation R} {ms : List (Mutation R)}

theorem mutates_run (g : Graph R) (m : Mutation R) : g.Mutates (m.run g) := by
  cases m with
  | addVertex v => exact .addVertex v
  | removeVertex v => exact .removeVertex v
  | addEdge source target kind => exact .addEdge g source target kind
  | modifyServices f => exact .services (f g.services)
  | addStreet source target way permits =>
    unfold Mutation.run addStreet
    dsimp only
    cases g.straightStreet source target way permits with
    | error => exact .upkeep .refl
    | ok street => exact .addEdge g source target (.street street)
  | addRestriction restriction =>
    change g.Mutates (Mutation.outcome g (g.addRestriction restriction))
    cases h : g.addRestriction restriction with
    | error => exact .upkeep .refl
    | ok next => exact .addRestriction h
  | turn t =>
    change g.Mutates (t.unit g)
    have hall : ∀ (ρ : Type) [Place R ρ], g.Disposes ρ fun _ => True := fun _ _ _ _ => trivial
    rcases t.upkeep (hall (CarPark R)) (hall (Station R)) with h | ⟨services, h⟩
    · exact .upkeep h
    · rw [h]
      exact .services services

/-! ## All mutations -/

/-- The graph that mutations make of nothing, one after the other. -/
def made (ms : List (Mutation R)) : Graph R := ms.foldl Mutation.run .empty

theorem made_concat : made (ms ++ [m]) = m.run (made ms) := by
  simp [made]

theorem evolved_made (ms : List (Mutation R)) : (made ms).Evolved := by
  induction ms using List.reverseRecOn with
  | nil => exact .empty
  | append_singleton ms m ih =>
    rw [made_concat]
    exact (mutates_run _ m).evolved ih

/-- Whatever a graph goes through, a restriction is kept under the street it starts from, both its
streets are there, and the second one starts where the first one ends; no index keeps an empty list.
An edge that comes by a mutation is mentioned by no restriction, whatever index it has got. -/
theorem binds_made (ms : List (Mutation R)) :
    (∀ {e restrictions}, (made ms).restrictions.get? e = some restrictions →
      restrictions ≠ [] ∧ ∀ restriction ∈ restrictions, (made ms).Binds e restriction) ∧
    ∀ {m : Mutation R} {e edge}, (made (ms ++ [m])).edge? e = some edge →
      (made ms).edge? e ≠ some edge →
      ∀ {k restriction}, restriction ∈ (made (ms ++ [m])).restrictionsAfter k →
        restriction.source ≠ e ∧ restriction.target ≠ e := by
  have hregulated := fun ms : List (Mutation R) => (evolved_made ms).regulated
  refine ⟨fun hget => ⟨(hregulated ms).ne_nil hget, (hregulated ms).binds hget⟩, ?_⟩
  intro m e edge he hcomes k restriction hmem
  have hnext := hregulated (ms ++ [m])
  rw [made_concat] at he hmem hnext
  exact (mutates_run _ m).ne_of_comes (hregulated ms) hnext he hcomes hmem

end

end Graph

/-! ## A junction that is rebuilt -/

namespace Junction

def ban (target : EdgeIndex) : TurnRestriction := ⟨.noTurn, 0, target, .allStreet⟩

/-- Two streets go on from one, and neither may be turned into. Two restrictions are refused, one on
streets that do not meet. Then the end of the first street is taken down and put up again. -/
def mutations : List (Mutation ℚ) :=
  [.addVertex (.intersection "west" ⟨0, 0⟩), .addVertex (.intersection "middle" ⟨1, 0⟩),
    .addVertex (.intersection "east" ⟨2, 0⟩), .addVertex (.intersection "north" ⟨1, 1⟩),
    .addStreet 0 1 1 .allStreet, .addStreet 1 2 2 .allStreet, .addStreet 1 3 3 .allStreet,
    .addRestriction (ban 1), .addRestriction (ban 2), .addRestriction ⟨.noTurn, 1, 2, .allStreet⟩,
    .addRestriction (ban 7), .removeVertex 2, .removeVertex 9,
    .addVertex (.intersection "east" ⟨2, 0⟩)]

/-- The street is built anew. -/
def rebuilding : Mutation ℚ := .addStreet 1 2 2 .allStreet

/-- The new street has the index of the one that must not be turned into, and may be turned into. -/
theorem binds_junction :
    (Graph.made (mutations.take 11)).restrictionsAfter 0 = [ban 1, ban 2] ∧
    (Graph.made (mutations.take 11)).edge? 1 ≠ none ∧ (Graph.made mutations).edge? 1 = none ∧
    (∃ edge, (Graph.made (mutations ++ [rebuilding])).edge? 1 = some edge) ∧
    (Graph.made (mutations ++ [rebuilding])).restrictionsAfter 0 = [ban 2] ∧
    ∀ {k restriction}, restriction ∈
      (Graph.made (mutations ++ [rebuilding])).restrictionsAfter k →
        restriction.source ≠ 1 ∧ restriction.target ≠ 1 := by
  have hnone : (Graph.made mutations).edge? 1 = none := by decide
  have hsome : ((Graph.made (mutations ++ [rebuilding])).edge? 1).isSome = true := by
    decide
  obtain ⟨edge, hedge⟩ := Option.isSome_iff_exists.1 hsome
  refine ⟨by decide, by decide, hnone, ⟨edge, hedge⟩, by decide, ?_⟩
  intro k restriction hmem
  refine (Graph.binds_made mutations).2 hedge ?_ hmem
  rw [hnone]
  exact nofun

end Junction

end TripPlanner
