import TripPlanner.Proofs.Aspects
import TripPlanner.Proofs.Removal

/-!
# Failures

The operations on a graph, carried out in place: one look-up or one write after the other, where
what is written stays written when a later step fails (`Graph.InPlace`). In a graph that has evolved
all checks come before the first write that changes anything, so that what fails leaves the graph
as it is (`Graph.Evolved.atomic`). The removal of a vertex writes the restrictions before it knows
whether the vertex is there; nothing is changed by that as no list of restrictions is empty.
-/

namespace TripPlanner

namespace Graph

variable {R : Type} [Quantity R] {g : Graph R} {source target v : VertexIndex} {kind : EdgeKind R}
  {restriction : TurnRestriction}

/-- Steps that read and write one graph and may fail. -/
abbrev InPlace (R α : Type) := ExceptT (Error R) (StateM (Graph R)) α

namespace InPlace

variable {α : Type}

/-- What the steps give back, and the graph that they leave behind. -/
def outcome (steps : InPlace R α) (g : Graph R) : Except (Error R) α × Graph R :=
  StateT.run (m := Id) (ExceptT.run steps) g

/-- Adds an edge: the vertices are looked up, then the counter, the bounds and the edges written. -/
def addEdge (source target : VertexIndex) (kind : EdgeKind R) : InPlace R EdgeIndex := do
  let g ← get
  unless g.vertices.contains source && g.vertices.contains target do throw .unknownVertex
  let number := (← get).nextEdgeId
  modify fun g => { g with nextEdgeId := g.nextEdgeId + 1 }
  modify fun g => { g with bounds := g.bounds.extend kind }
  let index := (← get).edges.next
  modify fun g => { g with edges := g.edges.insert ⟨number, source, target, kind⟩ }
  return index

/-- Adds a straight stretch of street, which is measured first. -/
def addStreet [Geodesy R] (source target : VertexIndex) (way : Int) (permits : ModeSet) :
    InPlace R EdgeIndex := do
  let street ← MonadExcept.ofExcept ((← get).straightStreet source target way permits)
  addEdge source target (.street street)

/-- Adds a turn restriction: each edge is looked up, then what they are and how they meet. -/
def addRestriction (restriction : TurnRestriction) : InPlace R Unit := do
  let some source := (← get).edge? restriction.source
    | throw (.invalidData .unknownSource)
  let some target := (← get).edge? restriction.target
    | throw (.invalidData .unknownTarget)
  unless source.target = target.source ∧ source.street?.isSome ∧ target.street?.isSome do
    throw (.invalidData (.notConsecutiveStreets restriction.source restriction.target))
  modify fun g => { g with
    restrictions := g.restrictions.insert restriction.source
      (g.restrictionsAfter restriction.source ++ [restriction]) }

/-- Drops the restrictions that mention one of the edges: those after one, then those onto one. -/
def dropRestrictions (gone : List EdgeIndex) : StateM (Graph R) PUnit := do
  gone.forM fun e => modify fun g => { g with restrictions := g.restrictions.erase e }
  modify fun g => { g with
    restrictions := g.restrictions.filterMap fun _ restrictions =>
      let kept := restrictions.filter fun restriction => restriction.target ∉ gone
      if kept.isEmpty then none else some kept }

/-- Removes a vertex: the restrictions are written before it turns out whether it is there. -/
def removeVertex (v : VertexIndex) : StateM (Graph R) (Option (Vertex R)) := do
  let gone := (← get).incident v
  dropRestrictions gone
  let some vertex := (← get).vertex? v
    | return none
  modify fun g => { g with vertices := g.vertices.erase v, edges := g.edges.eraseAll gone }
  if vertex.isStreet then
    modify fun g => { g with streetIndex := g.streetIndex.erase vertex.position v }
  return some vertex

/-- The steps do what the operation does: they make the same graph where it succeeds, and fail alike
where it fails, and then they leave the graph as it is. -/
structure Performs (steps : InPlace R α) (g : Graph R)
    (result : Except (Error R) (α × Graph R)) : Prop where
  ok : ∀ {a next}, result = .ok (a, next) → steps.outcome g = (.ok a, next)
  error : ∀ {error}, result = .error error → steps.outcome g = (.error error, g)

section
omit [Quantity R]

theorem outcome_get_bind (rest : Graph R → InPlace R α) :
    outcome (get >>= rest) g = (rest g).outcome g := rfl

theorem Performs.of_ok {steps : InPlace R α} {a : α} {next : Graph R}
    (h : steps.outcome g = (.ok a, next)) : steps.Performs g (.ok (a, next)) where
  ok heq := by cases heq; exact h
  error heq := nomatch heq

theorem Performs.of_error {steps : InPlace R α} {error : Error R}
    (h : steps.outcome g = (.error error, g)) : steps.Performs g (.error error) where
  ok heq := nomatch heq
  error heq := by cases heq; exact h

end

theorem performs_addEdge (g : Graph R) (source target : VertexIndex) (kind : EdgeKind R) :
    (addEdge source target kind).Performs g (g.addEdge source target kind) := by
  unfold Graph.addEdge addEdge
  split
  · rename_i hends
    refine .of_ok ?_
    rw [outcome_get_bind, if_pos hends]
    rfl
  · rename_i hends
    refine .of_error ?_
    rw [outcome_get_bind, if_neg hends]
    rfl

theorem performs_addStreet [Geodesy R] (g : Graph R) (source target : VertexIndex) (way : Int)
    (permits : ModeSet) :
    (addStreet source target way permits).Performs g (g.addStreet source target way permits) := by
  unfold Graph.addStreet addStreet
  cases hstreet : g.straightStreet source target way permits with
  | error =>
    refine .of_error ?_
    rw [outcome_get_bind, hstreet]
    rfl
  | ok street =>
    have hsteps : (addStreet source target way permits).outcome g =
        (addEdge source target (.street street)).outcome g := by
      rw [addStreet, outcome_get_bind, hstreet]
      rfl
    have H := performs_addEdge g source target (.street street)
    exact ⟨fun h => hsteps.trans (H.ok h), fun h => hsteps.trans (H.error h)⟩

omit [Quantity R] in
theorem performs_addRestriction (g : Graph R) (restriction : TurnRestriction) :
    (addRestriction restriction).Performs g ((g.addRestriction restriction).map ((), ·)) := by
  unfold Graph.addRestriction addRestriction
  cases hsource : g.edge? restriction.source with
  | none =>
    refine .of_error ?_
    rw [outcome_get_bind, hsource]
    rfl
  | some source =>
    cases htarget : g.edge? restriction.target with
    | none =>
      refine .of_error ?_
      simp only [outcome_get_bind, hsource, htarget]
      rfl
    | some target =>
      dsimp only
      split
      · rename_i hmeet
        refine .of_ok ?_
        simp only [outcome_get_bind, hsource, htarget]
        rw [if_pos hmeet]
        rfl
      · rename_i hmeet
        refine .of_error ?_
        simp only [outcome_get_bind, hsource, htarget]
        rw [if_neg hmeet]
        rfl

end InPlace

/-! ## The removal of a vertex -/

section
omit [Quantity R]

/-- Dropping keys and filtering lists one after the other is the same as at once. -/
theorem filterMap_foldl_erase (g : Graph R) (gone : List EdgeIndex) :
    ((gone.foldl Table.erase g.restrictions).filterMap fun _ restrictions =>
      let kept := restrictions.filter fun restriction => restriction.target ∉ gone
      if kept.isEmpty then none else some kept) = g.restrictionsWithout gone := by
  refine Table.ext_entries ?_
  rw [restrictionsWithout, Table.entries_filterMap, Table.entries_filterMap,
    Table.entries_foldl_erase, List.filterMap_filter]
  refine List.filterMap_congr fun entry _ => ?_
  by_cases h : entry.1 ∈ gone <;> simp [h]

namespace InPlace

theorem forM_erase (gone : List EdgeIndex) (g : Graph R) :
    StateT.run (m := Id) (gone.forM fun e =>
      modify fun g : Graph R => { g with restrictions := g.restrictions.erase e }) g =
        pure (⟨⟩, { g with restrictions := gone.foldl Table.erase g.restrictions }) := by
  induction gone generalizing g with
  | nil => rfl
  | cons e gone ih => exact ih _

theorem dropRestrictions_run (gone : List EdgeIndex) (g : Graph R) :
    StateT.run (m := Id) (dropRestrictions gone) g =
      pure (⟨⟩, { g with restrictions := g.restrictionsWithout gone }) := by
  rw [dropRestrictions, StateT.run_bind, forM_erase, ← filterMap_foldl_erase]
  rfl

end InPlace

end

/-- Where there is no vertex, there is nothing to remove. -/
theorem Regulated.removeVertex_of_none (H : g.Regulated) (h : g.vertex? v = none) :
    g.removeVertex v = (none, g) := by
  obtain ⟨houtgoing, hincoming⟩ := edges_eq_nil H h
  have hincident : g.incident v = [] := by rw [incident, houtgoing, hincoming]; rfl
  have hrestrictions : g.restrictionsWithout [] = g.restrictions := by
    refine Table.filterMap_eq_self ?_
    rintro ⟨e, restrictions⟩ hmem
    have hne : restrictions ≠ [] := H.ne_nil (Table.get?_eq_some_iff.2 hmem)
    simpa using hne
  simp only [Graph.removeVertex, h, hincident, hrestrictions, Arena.erase_eq_self h]
  rfl

/-- The steps come to what the operation does, where no list of restrictions is empty. -/
theorem InPlace.removeVertex_run (H : g.Regulated) (v : VertexIndex) :
    StateT.run (m := Id) (InPlace.removeVertex v) g = g.removeVertex v := by
  cases h : g.vertex? v with
  | none =>
    have hgone := H.removeVertex_of_none h
    have hkept : g.restrictionsWithout (g.incident v) = g.restrictions :=
      congrArg (fun result => result.2.restrictions) hgone
    rw [hgone]
    simp only [InPlace.removeVertex, StateT.run_bind, StateT.run_get, pure_bind,
      dropRestrictions_run, hkept, h]
    rfl
  | some vertex =>
    have hstill : ({ g with restrictions := g.restrictionsWithout (g.incident v) } :
        Graph R).vertex? v = some vertex := h
    simp only [InPlace.removeVertex, StateT.run_bind, StateT.run_get, pure_bind,
      dropRestrictions_run, hstill, StateT.run_modify]
    rw [Graph.removeVertex, h]
    dsimp only
    cases vertex.isStreet <;> rfl

/-! ## All operations -/

omit [Quantity R] in
theorem exists_addRestriction_iff : (∃ next, g.addRestriction restriction = .ok next) ↔
    g.Binds restriction.source restriction := by
  constructor
  · rintro ⟨next, h⟩
    unfold Graph.addRestriction at h
    split at h
    · cases h
    · cases h
    · rename_i source target hsource htarget
      split at h
      · rename_i hmeet
        exact ⟨rfl, source, target, hsource, htarget, hmeet.2.1, hmeet.2.2, hmeet.1⟩
      · cases h
  · rintro ⟨-, source, target, hsource, htarget, hstreet, hstreet', hmeet⟩
    exact ⟨_, addRestriction_eq_ok hsource htarget hmeet hstreet hstreet'⟩

/-- Each operation can be carried out in place, and leaves the graph as it is if it fails. -/
structure Atomic [Geodesy R] (g : Graph R) : Prop where
  addEdge : ∀ source target kind,
    (InPlace.addEdge source target kind).Performs g (g.addEdge source target kind)
  addStreet : ∀ source target way permits,
    (InPlace.addStreet source target way permits).Performs g
      (g.addStreet source target way permits)
  addRestriction : ∀ restriction,
    (InPlace.addRestriction restriction).Performs g ((g.addRestriction restriction).map ((), ·))
  removeVertex : ∀ v, StateT.run (m := Id) (InPlace.removeVertex v) g = g.removeVertex v
  removeVertex_none : ∀ {v}, (g.removeVertex v).1 = none → (g.removeVertex v).2 = g
  /-- A restriction can be added if it binds two streets that are there and meet. -/
  addRestriction_iff : ∀ restriction, (∃ next, g.addRestriction restriction = .ok next) ↔
    g.Binds restriction.source restriction

/-- What fails leaves the graph as it is. -/
theorem Evolved.atomic [Geodesy R] (H : g.Evolved) : g.Atomic where
  addEdge := InPlace.performs_addEdge g
  addStreet := InPlace.performs_addStreet g
  addRestriction := InPlace.performs_addRestriction g
  removeVertex := InPlace.removeVertex_run H.regulated
  removeVertex_none h := by rw [H.regulated.removeVertex_of_none h]
  addRestriction_iff _ := exists_addRestriction_iff

end Graph

namespace Overpass

/-- There is no vertex 7 to remove or to lead to, and the street from the bridge does not end where
the one below it starts. -/
theorem atomic_streets : streets.Atomic ∧ streets.removeVertex 7 = (none, streets) ∧
    (Graph.InPlace.addEdge 0 7 .alight).outcome streets = (.error .unknownVertex, streets) ∧
    (Graph.InPlace.addRestriction ⟨.noTurn, 0, 3, .allStreet⟩).outcome streets =
      (.error (.invalidData (.notConsecutiveStreets 0 3)), streets) := by
  have H : streets.Atomic := (Graph.evolved_made mutations).atomic
  have hnone : (streets.removeVertex 7).1 = none := by decide
  refine ⟨H, Prod.ext hnone (H.removeVertex_none hnone), (H.addEdge 0 7 .alight).error ?_,
    (H.addRestriction _).error ?_⟩
  · rfl
  · rfl

end Overpass

end TripPlanner
