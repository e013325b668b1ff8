import TripPlanner.Proofs.Construction
import TripPlanner.Proofs.Moves
import TripPlanner.Proofs.Regulation
import TripPlanner.Proofs.Upkeep

/-!
# Passing by places

Streets cost the same whether or not places are linked beside them, but for one thing: a vertex that
one edge leads to and one away from is crossed for free, and links count as edges. Where a place is
linked to such a vertex, or the last one goes, the delay of the turn comes or goes with it
(`Context.passesAlike_of_applyRecords`). This is as long as the streets in question stay.
-/

namespace TripPlanner

namespace Graph

variable {R : Type} [Quantity R] {own : VertexIndex → Prop} {g mid next : Graph R} {e : EdgeIndex}
  {edge : Edge R} {v : VertexIndex} {vertex : Vertex R}

/-- The edge is there before and after. -/
def Stays (g next : Graph R) (e : EdgeIndex) : Prop :=
  ∃ edge, g.edge? e = some edge ∧ next.edge? e = some edge

omit [Quantity R] in
/-- One edge leads to the vertex, and one away from it. -/
def IsPassThrough (g : Graph R) (v : VertexIndex) : Prop :=
  (g.incoming v).length = 1 ∧ (g.outgoing v).length = 1

/-! ## What stays beside the streets that stay -/

/-- An edge that is there in the end has been there all along. -/
theorem Stays.of_change (H : g.Stays next e) (hg : g.Coherent) (hpast : g.Changes mid)
    (h : mid.Change next) : g.Stays mid e := by
  obtain ⟨edge, hbefore, hafter⟩ := H
  refine ⟨edge, hbefore, edge?_of_changes (.single h) hafter ?_⟩
  exact Nat.lt_of_lt_of_le (hg.fresh hbefore) hpast.nextEdgeId_le

theorem not_mem_incident (h : (g.removeVertex v).2.edge? e = some edge) : e ∉ g.incident v := by
  rw [edge?_removeVertex, Option.ite_none_left_eq_some] at h
  exact h.1

theorem restrictionsAfter_removeVertex (h : e ∉ g.incident v) :
    (g.removeVertex v).2.restrictionsAfter e =
      (g.restrictionsAfter e).filter fun restriction => restriction.target ∉ g.incident v := by
  change ((g.restrictionsWithout (g.incident v)).get? e).getD [] = _
  rw [restrictionsWithout, Table.get?_filterMap, restrictionsAfter]
  cases g.restrictions.get? e with
  | none => rfl
  | some restrictions =>
    rw [Option.bind_some, Option.getD_some]
    dsimp only
    split
    · -- Nothing is left of the list, so that its key is dropped.
      rename_i hgone
      rw [Bool.or_eq_true, decide_eq_true_eq] at hgone
      exact (List.isEmpty_iff.1 (hgone.resolve_left h)).symm
    · rfl

theorem Upkeep.vertex?_source (H : Upkeep own g next) (hg : g.Coherent) (he : g.Stays next e)
    (hedge : g.edge? e = some edge) (hv : g.vertex? edge.source = some vertex) :
    next.vertex? edge.source = some vertex := by
  induction H with
  | refl => exact hv
  | @tail mid next hpast h ih =>
    have hchanges : g.Changes mid := Upkeep.changes hpast
    have hmid := ih (he.of_change hg hchanges h.change)
    cases h with
    | addVertex => rw [vertex?_addVertex, if_neg (ne_next_of_vertex? hmid), hmid]
    | connect | modifyServices => exact hmid
    | removeVertex =>
      -- The edge would have gone with its vertex.
      obtain ⟨edge', hbefore, hafter⟩ := he
      cases hedge.symm.trans hbefore
      rw [vertex?_removeVertex, if_neg (edge?_removeVertex_iff.1 hafter).2.1, hmid]

theorem Upkeep.restrictionsAfter_eq (H : Upkeep own g next) (hg : g.Coherent)
    (he : g.Stays next e)
    (htargets : ∀ restriction ∈ g.restrictionsAfter e, g.Stays next restriction.target) :
    next.restrictionsAfter e = g.restrictionsAfter e := by
  induction H with
  | refl => rfl
  | @tail mid next hpast h ih =>
    have hchanges : g.Changes mid := Upkeep.changes hpast
    have hmid := ih (he.of_change hg hchanges h.change)
      fun restriction hmem => (htargets restriction hmem).of_change hg hchanges h.change
    cases h with
    | addVertex | connect | modifyServices => exact hmid
    | removeVertex =>
      obtain ⟨edge, -, hafter⟩ := he
      rw [restrictionsAfter_removeVertex (not_mem_incident hafter), hmid, List.filter_eq_self]
      intro restriction hmem
      obtain ⟨target, -, hafter⟩ := htargets restriction hmem
      exact decide_eq_true (not_mem_incident hafter)

/-! ## What is crossed for free -/

omit [Quantity R] in
/-- Where the same vertex is crossed for free on one side only, it is an intersection of which this
is not declared, and that is passed through on one side only. -/
theorem isFreeFlowing_ne (hv : g.vertex? v = some vertex) (hnext : next.vertex? v = some vertex)
    (h : next.isFreeFlowing v ≠ g.isFreeFlowing v) :
    vertex.kind = .intersection false false ∧ ¬ (g.IsPassThrough v ↔ next.IsPassThrough v) := by
  unfold isFreeFlowing at h
  rw [hv, hnext, Option.map_some] at h
  unfold IsPassThrough
  split at h
  · rename_i light flowing hkind
    cases flowing with
    | true => exact (h rfl).elim
    | false =>
      cases light with
      | true => exact (h rfl).elim
      | false =>
        refine ⟨Option.some.inj hkind, fun hiff => h ?_⟩
        simp only [Bool.false_or, Bool.not_false, Bool.true_and, ← Bool.decide_and]
        exact decide_eq_decide.2 hiff.symm
  · exact (h rfl).elim

end Graph

/-! ## Streets -/

namespace Move

variable {R : Type} [Quantity R]

/-- The move with a delay in front of it. Seconds are counted in full. -/
def delayed (move : Move R) (delay : R) : Move R :=
  { move with seconds := move.seconds + Quantity.ceil delay, cost := move.cost + delay }

end Move

namespace Context

variable {R ρ : Type} [Quantity R] {ctx ctx' : Context R} {s : State R} {e : EdgeIndex}
  {edge : Edge R} {street : Street R} {mode : Mode}

/-- The seconds of a crossing, none where it is for free. -/
def chargedAt (ctx : Context R) (v : VertexIndex) (delay : R) : R :=
  if ctx.graph.isFreeFlowing v then 0 else delay

/-- Along a street in some mode, the turn onto it left aside. -/
def alongOnly (ctx : Context R) (s : State R) (street : Street R) (mode : Mode) : Move R where
  seconds := street.length / ctx.streetSpeed street mode
  cost := ctx.streetWeight street mode (street.length / ctx.streetSpeed street mode)
  walked := if mode = .walk then street.length else 0
  mode := some mode
  plane := s.plane

/-- Where a state goes on to in two contexts, if it does: the same way, but that the delay is charged
where crossing the vertex is not for free. -/
inductive GoesOnAlike (ctx ctx' : Context R) (id : StateId) (s : State R) (e : EdgeIndex)
    (edge : Edge R) : Option (State R) → Option (State R) → Prop where
  | none : GoesOnAlike ctx ctx' id s e edge none none
  | some {move : Move R} (delay : R) : move.plane = s.plane → GoesOnAlike ctx ctx' id s e edge
      (some (s.after id e edge (move.delayed (ctx.chargedAt s.vertex delay))))
      (some (s.after id e edge (move.delayed (ctx'.chargedAt s.vertex delay))))

/-- Two contexts let a state go on alike along a street, up to the delay where the crossing in front
of it is for free on one side only. -/
structure PassesAlike (ctx ctx' : Context R) (s : State R) (e : EdgeIndex) (edge : Edge R) :
    Prop where
  same : ctx'.graph.isFreeFlowing s.vertex = ctx.graph.isFreeFlowing s.vertex →
    ∀ id, ctx'.traverse id s e edge = ctx.traverse id s e edge
  alike : ∀ id, ctx.GoesOnAlike ctx' id s e edge (ctx.traverse id s e edge)
    (ctx'.traverse id s e edge)
  inferred : ctx'.graph.isFreeFlowing s.vertex ≠ ctx.graph.isFreeFlowing s.vertex →
    ∃ vertex, ctx.graph.vertex? s.vertex = some vertex ∧
      ctx'.graph.vertex? s.vertex = some vertex ∧ vertex.kind = .intersection false false ∧
      ¬ (ctx.graph.IsPassThrough s.vertex ↔ ctx'.graph.IsPassThrough s.vertex)

theorem GoesOnAlike.eq {id : StateId} {next next' : Option (State R)}
    (H : ctx.GoesOnAlike ctx' id s e edge next next')
    (h : ctx'.graph.isFreeFlowing s.vertex = ctx.graph.isFreeFlowing s.vertex) : next' = next := by
  cases H with
  | none => rfl
  | some delay => rw [chargedAt, h, chargedAt]

theorem move?_street (h : edge.kind = .street street) : ctx.move? s e edge =
    if ctx.graph.isBlocked edge then none else ctx.streetMove? s e street := by
  simp only [move?, h]

theorem streetMove?_of_mode (h : ctx.modeOnStreet? s street = some mode) :
    ctx.streetMove? s e street = if ctx.isTurnForbidden s e mode then none else
      some ((ctx.alongOnly s street mode).delayed
        (ctx.turnDelay s street mode (ctx.streetSpeed street mode))) := by
  unfold streetMove?
  rw [h]
  rfl

section
variable (hrequest : ctx'.request = ctx.request)
include hrequest

omit [Quantity R] in
theorem modeOnStreet?_congr : ctx'.modeOnStreet? s street = ctx.modeOnStreet? s street := by
  unfold modeOnStreet?
  rw [hrequest]

omit [Quantity R] in
theorem streetSpeed_congr : ctx'.streetSpeed street mode = ctx.streetSpeed street mode := by
  unfold streetSpeed
  rw [hrequest]

theorem alongOnly_congr : ctx'.alongOnly s street mode = ctx.alongOnly s street mode := by
  unfold alongOnly streetWeight
  rw [streetSpeed_congr hrequest, hrequest]

/-- The delay of the same turn, where it is not for free, depends on the light only. -/
theorem exists_turnDelay
    (hlight : ctx'.graph.hasTrafficLight s.vertex = ctx.graph.hasTrafficLight s.vertex)
    (hback : s.backStreet?.bind ctx'.graph.street? = s.backStreet?.bind ctx.graph.street?)
    (street : Street R) (mode : Mode) (speed : R) : ∃ delay,
      ctx.turnDelay s street mode speed = ctx.chargedAt s.vertex delay ∧
        ctx'.turnDelay s street mode speed = ctx'.chargedAt s.vertex delay := by
  unfold turnDelay
  rw [hback]
  cases s.backStreet?.bind ctx.graph.street? with
  | none => exact ⟨0, (ite_self _).symm, (ite_self _).symm⟩
  | some source =>
    unfold Crossing.delay
    rw [hrequest, hlight]
    exact ⟨_, rfl, rfl⟩

/-- Contexts that agree on the request, on what is closed, on the turn restrictions and on the light
differ in what is for free only. -/
theorem goesOnAlike_of_agree (hstreet : edge.kind = .street street)
    (hblocked : ctx'.graph.isBlocked edge = ctx.graph.isBlocked edge)
    (hturn : ∀ mode, ctx'.isTurnForbidden s e mode = ctx.isTurnForbidden s e mode)
    (hlight : ctx'.graph.hasTrafficLight s.vertex = ctx.graph.hasTrafficLight s.vertex)
    (hback : s.backStreet?.bind ctx'.graph.street? = s.backStreet?.bind ctx.graph.street?)
    (id : StateId) : ctx.GoesOnAlike ctx' id s e edge (ctx.traverse id s e edge)
      (ctx'.traverse id s e edge) := by
  unfold traverse
  rw [move?_street hstreet, move?_street hstreet, hblocked]
  cases ctx.graph.isBlocked edge with
  | true => exact .none
  | false =>
    simp only [Bool.false_eq_true, if_false]
    cases hmode : ctx.modeOnStreet? s street with
    | none =>
      have hmode' := (modeOnStreet?_congr hrequest).trans hmode
      unfold streetMove?
      rw [hmode, hmode']
      exact .none
    | some mode =>
      have hmode' := (modeOnStreet?_congr hrequest).trans hmode
      rw [streetMove?_of_mode hmode, streetMove?_of_mode hmode', hturn]
      cases ctx.isTurnForbidden s e mode with
      | true => exact .none
      | false =>
        obtain ⟨delay, hdelay, hdelay'⟩ :=
          exists_turnDelay hrequest hlight hback street mode (ctx.streetSpeed street mode)
        rw [streetSpeed_congr hrequest, alongOnly_congr hrequest, hdelay, hdelay']
        exact .some delay rfl

end

/-! ## Before and after a unit -/

/-- Whatever records are brought in, a state goes on alike along a street of its vertex, if the unit
leaves that street, the one that the state came over and those that its turn restrictions are
about: with the same mode, walk and plane, and the same weight and time but for the delay of the
turn, which is for free on one side only if the vertex is passed through on one side only. -/
theorem passesAlike_of_applyRecords [Geodesy R] [Place R ρ] [AsidePlace R ρ] {records : List ρ}
    (H : ctx.graph.Evolved) (hgraph : ctx'.graph = ctx.graph.applyRecords records)
    (hrequest : ctx'.request = ctx.request) (hedge : ctx.graph.edge? e = some edge)
    (hstreet : edge.kind = .street street) (hsource : edge.source = s.vertex)
    (hstays : ctx.graph.Stays ctx'.graph e)
    (hback : ∀ before, s.backStreet? = some before → ctx.graph.Stays ctx'.graph before ∧
      ∀ restriction ∈ ctx.graph.restrictionsAfter before,
        ctx.graph.Stays ctx'.graph restriction.target) :
    ctx.PassesAlike ctx' s e edge := by
  have hall : ctx.graph.Disposes ρ fun _ => True := fun _ _ => trivial
  have hupkeep : Graph.Upkeep (fun _ => True) ctx.graph ctx'.graph :=
    hgraph ▸ Graph.Upkeep.applyRecords hall records
  have hcoherent := H.coherent
  obtain ⟨vertex, hv⟩ := Graph.contains_iff.1 (H.regulated.ends hedge).1
  have hv' := hupkeep.vertex?_source hcoherent hstays hedge hv
  rw [hsource] at hv hv'
  have hblocked : ctx'.graph.isBlocked edge = ctx.graph.isBlocked edge := by
    rw [Graph.isBlocked, hupkeep.changes.roadworks, Graph.isBlocked]
  have hlight : ctx'.graph.hasTrafficLight s.vertex = ctx.graph.hasTrafficLight s.vertex := by
    rw [Graph.hasTrafficLight, hv', Graph.hasTrafficLight, hv]
  have hturn : ∀ mode, ctx'.isTurnForbidden s e mode = ctx.isTurnForbidden s e mode := by
    intro mode
    unfold isTurnForbidden
    cases hbefore : s.backStreet? with
    | none => rfl
    | some before =>
      obtain ⟨hstays, htargets⟩ := hback before hbefore
      rw [Option.any_some, Option.any_some,
        hupkeep.restrictionsAfter_eq hcoherent hstays htargets]
  have hbackStreet : s.backStreet?.bind ctx'.graph.street? =
      s.backStreet?.bind ctx.graph.street? := by
    cases hbefore : s.backStreet? with
    | none => rfl
    | some before =>
      obtain ⟨⟨edge, hedge, hedge'⟩, -⟩ := hback before hbefore
      rw [Option.bind_some, Option.bind_some, Graph.street?, hedge', Graph.street?, hedge]
  have halike := goesOnAlike_of_agree hrequest hstreet hblocked hturn hlight hbackStreet
  refine ⟨fun hfree id => (halike id).eq hfree, halike, fun hfree => ?_⟩
  exact ⟨vertex, hv, hv', Graph.isFreeFlowing_ne hv hv' hfree⟩

end Context

/-! ## A lane with a bend -/

namespace Lane

/-- A stretch of street that goes straight on in some direction. -/
def heading (way angle : Int) : EdgeKind ℚ :=
  .street ((Street.plain way 1000 .allStreet).withAngles angle angle)

def corners : List (Vertex ℚ) :=
  [.intersection "west" ⟨0, 0⟩, .intersection "bend" ⟨1, 0⟩, .intersection "south" ⟨1, -1⟩]

def oneWay : Graph ℚ := .build corners [(0, 1, heading 1 90), (1, 2, heading 2 180)]

def twoWay : Graph ℚ :=
  .build corners
    [(0, 1, heading 1 90), (1, 2, heading 2 180), (1, 0, heading 1 270), (2, 1, heading 2 0)]

def onward : Edge ℚ := ⟨1, 1, 2, heading 2 180⟩

def noTurningBack : TurnRestriction := ⟨.noTurn, 0, 2, .allStreet⟩

/-- The lane in both directions, with the turn restriction. -/
def lane : Graph ℚ :=
  { twoWay with restrictions := twoWay.restrictions.insert 0 [noTurningBack] }

/-- A car park at the bend. -/
def park : CarPark ℚ := ⟨"p", "park", ⟨1, 0⟩, 5, 10, true⟩

theorem evolved_oneWay : oneWay.Evolved := (Graph.built_build (by decide)).evolved

theorem evolved_twoWay : twoWay.Evolved := (Graph.built_build (by decide)).evolved

theorem evolved_lane : lane.Evolved := by
  have hlane : twoWay.addRestriction noTurningBack = .ok lane := rfl
  exact evolved_twoWay.change (.addRestriction hlane)

/-- A walk along the first street of the lane. -/
def walk (g : Graph ℚ) : Context ℚ := .placed (Corners.onFoot 0 1) g 0 1 ⟨0, 0⟩ ⟨1, 0⟩

/-- At the bend, having come over an edge. -/
def atBend (back : EdgeIndex) : State ℚ :=
  { State.initial 1 with back := some ⟨back, .street⟩, mode := some .walk }

/-- Going on over an edge, if it is there. -/
def goOn (g : Graph ℚ) (back e : EdgeIndex) : Option (State ℚ) :=
  (g.edge? e).bind ((walk g).traverse 0 (atBend back) e)

/-- With a car park beside it, the bend of the lane is crossed as before. -/
theorem passesAlike_lane : lane.isFreeFlowing 1 = false ∧ (goOn lane 0 1).isSome = true ∧
    (walk lane).PassesAlike (walk (lane.applyRecords [park])) (atBend 0) 1 onward := by
  refine ⟨by decide, by decide, ?_⟩
  have honward : lane.Stays (lane.applyRecords [park]) 1 :=
    ⟨onward, by decide +kernel, by decide +kernel⟩
  have hbefore : lane.Stays (lane.applyRecords [park]) 0 :=
    ⟨⟨0, 0, 1, heading 1 90⟩, by decide +kernel, by decide +kernel⟩
  have hbackward : lane.Stays (lane.applyRecords [park]) 2 :=
    ⟨⟨2, 1, 0, heading 1 270⟩, by decide +kernel, by decide +kernel⟩
  have hrestrictions : lane.restrictionsAfter 0 = [noTurningBack] := by decide
  refine Context.passesAlike_of_applyRecords evolved_lane rfl rfl (by decide +kernel) rfl rfl
    honward ?_
  rintro before hback
  cases hback
  refine ⟨hbefore, fun restriction hmem => ?_⟩
  cases List.mem_singleton.1 (hrestrictions ▸ hmem)
  exact hbackward

/-! ### What comes and goes with a car park -/

/-- Who comes from the west must turn into the drive. -/
def onlyDrive : TurnRestriction := ⟨.onlyTurn, 0, 7, .allStreet⟩

/-- The lane in both directions, with streets from and to the car park that someone has added. -/
def drive : Graph ℚ :=
  (((twoWay.applyRecords [park]).connect 1 3 (heading 3 0)).2.connect 3 1 (heading 3 90)).2

def gated : Graph ℚ := { drive with restrictions := drive.restrictions.insert 0 [onlyDrive] }

theorem evolved_gated : gated.Evolved := by
  have hparked : (twoWay.applyRecords [park]).Evolved :=
    evolved_twoWay.changes (.applyRecords twoWay [park])
  have hdrive : drive.Evolved :=
    (hparked.change (.connect _ (by decide +kernel) (by decide +kernel))).change
      (.connect _ (by decide +kernel) (by decide +kernel))
  have hfrom : drive.edge? 0 = some ⟨0, 0, 1, heading 1 90⟩ := by decide +kernel
  have honto : drive.edge? 7 = some ⟨7, 1, 3, heading 3 0⟩ := by decide +kernel
  have hgated : drive.addRestriction onlyDrive = .ok gated := by
    have hnone : drive.restrictionsAfter onlyDrive.source = [] := by decide +kernel
    refine (Graph.addRestriction_eq_ok hfrom honto rfl rfl rfl).trans ?_
    rw [hnone]
    rfl
  exact hdrive.change (.addRestriction hgated)

/-- Without the car park, and so without the streets from and to it. -/
def ungated : Graph ℚ := gated.applyRecords ([] : List (CarPark ℚ))

/-- A car park makes the turn in the one-way lane longer. When one goes with streets that someone
has led to it, what has been forbidden is allowed, a turn from such a street is not delayed any
more, and such a street cannot be taken. -/
theorem goOn_changes : (Corners.onFoot 0 1).validate = .ok () ∧
    oneWay.Evolved ∧ (goOn oneWay 0 1).map State.weight = some (200000 / 133) ∧
    (goOn (oneWay.applyRecords [park]) 0 1).map State.weight = some (10550 / 7) ∧
    gated.Evolved ∧ goOn gated 0 1 = none ∧ (goOn ungated 0 1).isSome = true ∧
    (goOn gated 8 1).map State.weight = some (10550 / 7) ∧
    (goOn ungated 8 1).map State.weight = some (200000 / 133) ∧
    (goOn gated 0 7).isSome = true ∧ goOn ungated 0 7 = none := by
  refine ⟨by decide +kernel, evolved_oneWay, by decide +kernel, by decide +kernel, evolved_gated,
    by decide +kernel, by decide +kernel, by decide +kernel, by decide +kernel, by decide +kernel,
    by decide +kernel⟩

end Lane

end TripPlanner
