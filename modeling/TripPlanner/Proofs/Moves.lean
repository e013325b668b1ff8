import TripPlanner.Proofs.Step

/-!
# Moves by kind of edge

`Context.Moves` says for each kind of edge which states follow it, and with what move.
`move?_eq_some_iff` reads it off the code once; whatever holds of all moves is a case analysis.
-/

namespace TripPlanner

@[simp] theorem Move.along_plane {R : Type} [Quantity R] (request : Request R) (plane : Plane)
    (mode : Mode) (length speed : R) : (along request plane mode length speed).plane = plane := by
  unfold along
  dsimp only
  split <;> rfl

@[simp] theorem Move.along_mode {R : Type} [Quantity R] (request : Request R) (plane : Plane)
    (mode : Mode) (length speed : R) : (along request plane mode length speed).mode = some mode := by
  unfold along
  dsimp only
  split <;> rfl

namespace Context

variable {R : Type} [Quantity R]

/-- Along a street in some mode. -/
def alongStreet (ctx : Context R) (s : State R) (street : Street R) (mode : Mode) : Move R where
  seconds := street.length / ctx.streetSpeed street mode
    + Quantity.ceil (ctx.turnDelay s street mode (ctx.streetSpeed street mode))
  cost := ctx.streetWeight street mode (street.length / ctx.streetSpeed street mode)
    + ctx.turnDelay s street mode (ctx.streetSpeed street mode)
  walked := if mode = .walk then street.length else 0
  mode := some mode
  plane := s.plane

/-- Speed along a link. -/
def linkSpeed (ctx : Context R) (mode : Mode) : R :=
  if mode = .car then defaultCarSpeed else Move.ownSpeed ctx.request mode

/-- The moves along an open edge. -/
inductive Moves (ctx : Context R) (s : State R) (e : EdgeIndex) (edge : Edge R) :
    Move R → Prop where
  | street {street : Street R} {mode : Mode} : edge.kind = .street street →
      ctx.modeOnStreet? s street = some mode → ctx.isTurnForbidden s e mode = false →
      Moves ctx s e edge (ctx.alongStreet s street mode)
  | link {length : R} : edge.kind = .link length →
      (s.streetMode ctx.request = .car → ctx.graph.isParkAndRide edge.source = true ∨
        ctx.graph.isParkAndRide edge.target = true) →
      Moves ctx s e edge (.along ctx.request s.plane (s.streetMode ctx.request) length
        (ctx.linkSpeed (s.streetMode ctx.request)))
  | parkCar : edge.kind = .parkAndRide → ctx.request.parkAndRide = true →
      s.streetMode ctx.request = .car →
      (ctx.request.useCarParkAvailability = true → ctx.isCarParkFull edge.source = false) →
      Moves ctx s e edge (.staying Move.carParkSeconds Move.carParkCost .walk
        { s.plane with carParked := true })
  | rentBike {networks : NetworkSet} : edge.kind = .rentBike → ctx.request.allowRental = true →
      s.plane.isRenting = false → s.streetMode ctx.request = .walk →
      ctx.stationNetworks? edge.source = some networks →
      (ctx.usableNetworks networks).isEmpty = false →
      Moves ctx s e edge (.staying Move.pickUpSeconds Move.pickUpCost .bicycle
        { s.plane with rented := some (ctx.usableNetworks networks) })
  | dropOffBike {renting networks : NetworkSet} : edge.kind = .dropOffBike →
      s.plane.rented = some renting → ctx.stationNetworks? edge.source = some networks →
      renting.isDisjoint networks = false →
      Moves ctx s e edge (.staying Move.dropOffSeconds Move.dropOffCost .walk
        { s.plane with rented := none })
  | parkBike : edge.kind = .bikePark → ctx.request.bikeAndRide = true →
      s.plane.bikeParked = false → s.streetMode ctx.request = .bicycle →
      Moves ctx s e edge (.staying Move.bikeParkSeconds Move.bikeParkCost .walk
        { s.plane with bikeParked := true })
  | board {wait : R} : edge.kind = .board wait → ctx.request.modes.transit = true →
      s.streetMode ctx.request = .walk →
      Moves ctx s e edge (.staying wait (wait + Move.boardCost) .transit
        { s.plane with everBoarded := true })
  | hop {duration length : R} : edge.kind = .hop duration length → s.plane.everBoarded = true →
      Moves ctx s e edge (.staying duration duration .transit s.plane)
  | alight : edge.kind = .alight → Moves ctx s e edge (.staying 0 0 .walk s.plane)
  | transfer {length : R} : edge.kind = .transfer length → s.arrivedVia .simpleTransfer = false →
      s.streetMode ctx.request = .walk →
      Moves ctx s e edge (.along ctx.request s.plane .walk length ctx.request.walkSpeed)
  | timedTransfer : edge.kind = .timedTransfer → Moves ctx s e edge ⟨0, 0, 0, s.mode, s.plane⟩

variable {ctx : Context R} {s : State R} {e : EdgeIndex} {edge : Edge R} {move : Move R}

omit [Quantity R] in
theorem modeOnStreet?_permits {street : Street R} {mode : Mode}
    (h : ctx.modeOnStreet? s street = some mode) : street.permits.contains mode = true := by
  unfold modeOnStreet? at h
  dsimp only at h
  split at h
  · rename_i hmode
    cases h
    exact hmode
  · split at h
    · rename_i hpush
      cases h
      exact (Bool.and_eq_true_iff.1 hpush).2
    · cases h

omit [Quantity R] in
/-- On a street one changes from the mode of one's situation to walking only. -/
theorem modeOnStreet?_eq_streetMode {street : Street R} {mode : Mode}
    (h : ctx.modeOnStreet? s street = some mode) (hwalk : mode ≠ .walk) :
    s.streetMode ctx.request = mode := by
  unfold modeOnStreet? at h
  dsimp only at h
  split at h
  · exact Option.some.inj h
  · split at h
    · exact absurd (Option.some.inj h).symm hwalk
    · cases h

theorem streetMove?_eq_some_iff {street : Street R} : ctx.streetMove? s e street = some move ↔
    ∃ mode, ctx.modeOnStreet? s street = some mode ∧ ctx.isTurnForbidden s e mode = false ∧
      move = ctx.alongStreet s street mode := by
  unfold streetMove?
  cases hmode : ctx.modeOnStreet? s street with
  | none => simp
  | some mode =>
    cases hturn : ctx.isTurnForbidden s e mode with
    | true => simp [hturn]
    | false =>
      simp only [hturn, Bool.false_eq_true, if_false, Option.some.injEq]
      exact ⟨fun h => ⟨mode, rfl, hturn, h.symm⟩, by rintro ⟨_, rfl, -, rfl⟩; rfl⟩

theorem moves_of_move? (h : ctx.move? s e edge = some move) : ctx.Moves s e edge move := by
  simp only [move?, not_isBlocked_of_move? h, Bool.false_eq_true, if_false] at h
  cases hkind : edge.kind <;> simp only [hkind] at h
  case street street =>
    obtain ⟨mode, hmode, hturn, rfl⟩ := streetMove?_eq_some_iff.1 h
    exact .street hkind hmode hturn
  case link length =>
    simp only [linkMove?, Option.ite_none_left_eq_some, Option.some.injEq] at h
    obtain ⟨hpark, rfl⟩ := h
    refine .link hkind fun hcar => ?_
    simpa [hcar, Decidable.or_iff_not_imp_left] using hpark
  case parkAndRide =>
    simp only [parkCar?, Option.ite_none_left_eq_some, Option.some.injEq] at h
    obtain ⟨hride, hfree, rfl⟩ := h
    simp only [Bool.or_eq_true, not_or] at hride
    exact .parkCar hkind (by simpa using hride.1) (by simpa using hride.2) (by simpa using hfree)
  case rentBike =>
    simp only [rentBike?, Option.ite_none_left_eq_some, Bool.or_eq_true, not_or] at h
    obtain ⟨⟨⟨hrental, hrenting⟩, hwalk⟩, h⟩ := h
    cases hstation : ctx.stationNetworks? edge.source with
    | none => simp [hstation] at h
    | some networks =>
      simp only [hstation, Option.ite_none_left_eq_some, Option.some.injEq] at h
      obtain ⟨husable, rfl⟩ := h
      exact .rentBike hkind (by simpa using hrental) (by simpa using hrenting)
        (by simpa using hwalk) hstation (by simpa using husable)
  case dropOffBike =>
    unfold dropOffBike? at h
    split at h
    · rename_i renting networks hrented hstation
      simp only [Option.ite_none_left_eq_some, Option.some.injEq] at h
      obtain ⟨hshared, rfl⟩ := h
      exact .dropOffBike hkind hrented hstation (by simpa using hshared)
    · cases h
  case bikePark =>
    simp only [parkBike?, Option.ite_none_left_eq_some, Bool.or_eq_true, not_or,
      Option.some.injEq] at h
    obtain ⟨⟨⟨hride, hparked⟩, hbicycle⟩, rfl⟩ := h
    exact .parkBike hkind (by simpa using hride) (by simpa using hparked) (by simpa using hbicycle)
  case board =>
    simp only [board?, Option.ite_none_left_eq_some, Bool.or_eq_true, not_or,
      Option.some.injEq] at h
    obtain ⟨⟨htransit, hwalk⟩, rfl⟩ := h
    exact .board hkind (by simpa using htransit) (by simpa using hwalk)
  case hop =>
    simp only [Option.ite_none_right_eq_some, Option.some.injEq] at h
    obtain ⟨haboard, rfl⟩ := h
    exact .hop hkind haboard
  case alight =>
    cases h
    exact .alight hkind
  case transfer =>
    simp only [transferMove?, Option.ite_none_left_eq_some, Bool.or_eq_true, not_or,
      Option.some.injEq] at h
    obtain ⟨⟨hvia, hwalk⟩, rfl⟩ := h
    have hwalk' : s.streetMode ctx.request = .walk := by simpa using hwalk
    rw [hwalk']
    exact .transfer hkind (by simpa using hvia) hwalk'
  case timedTransfer =>
    cases h
    exact .timedTransfer hkind

theorem Moves.move? (H : ctx.Moves s e edge move) (hopen : ctx.graph.isBlocked edge = false) :
    ctx.move? s e edge = some move := by
  unfold Context.move?
  rw [hopen]
  cases H with
  | street hkind hmode hturn =>
    simp only [hkind, Bool.false_eq_true, if_false]
    exact streetMove?_eq_some_iff.2 ⟨_, hmode, hturn, rfl⟩
  | link hkind hpark =>
    simp only [hkind, linkMove?, Bool.false_eq_true, if_false, Option.ite_none_left_eq_some]
    refine ⟨?_, rfl⟩
    simpa [Decidable.or_iff_not_imp_left] using hpark
  | parkCar hkind hride hcar hfree => simp [hkind, parkCar?, hride, hcar]; exact hfree
  | rentBike hkind hrental hrenting hwalk hstation husable =>
    simp [hkind, rentBike?, hrental, hrenting, hwalk, hstation, husable]
  | dropOffBike hkind hrented hstation hshared =>
    simp [hkind, dropOffBike?, hrented, hstation, hshared]
  | parkBike hkind hride hparked hbicycle =>
    simp [hkind, parkBike?, hride, hparked, hbicycle]
  | board hkind htransit hwalk => simp [hkind, board?, htransit, hwalk]
  | hop hkind haboard => simp [hkind, haboard]
  | alight hkind => simp [hkind]
  | transfer hkind hvia hwalk => simp [hkind, transferMove?, hvia, hwalk]
  | timedTransfer hkind => simp [hkind]

theorem move?_eq_some_iff : ctx.move? s e edge = some move ↔
    ctx.graph.isBlocked edge = false ∧ ctx.Moves s e edge move :=
  ⟨fun h => ⟨not_isBlocked_of_move? h, moves_of_move? h⟩, fun h => h.2.move? h.1⟩

theorem Moves.of_street (H : ctx.Moves s e edge move) {street : Street R}
    (hkind : edge.kind = .street street) : ∃ mode, ctx.modeOnStreet? s street = some mode ∧
      ctx.isTurnForbidden s e mode = false ∧ move = ctx.alongStreet s street mode := by
  cases H with
  | street hkind' hmode hturn =>
    cases hkind.symm.trans hkind'
    exact ⟨_, hmode, hturn, rfl⟩
  | _ => simp_all

/-- A state that came over a street did so from another one. -/
theorem Reachable.of_backStreet? (H : ctx.Reachable s) (hs : s.backStreet? = some e) :
    ∃ a id edge street move, ctx.Reachable a ∧ ctx.graph.edge? e = some edge ∧
      edge.kind = .street street ∧ ctx.move? a e edge = some move ∧ s = a.after id e edge move := by
  rw [State.backStreet?_eq_some_iff] at hs
  cases H with
  | origin => cases hs
  | @step a _ e' ha h =>
    obtain ⟨id, edge, move, hedge, -, hmove, rfl⟩ := h.cases
    rw [State.after_back, Option.some.injEq, BackEdge.mk.injEq] at hs
    obtain ⟨rfl, hclass⟩ := hs
    obtain ⟨street, hkind⟩ : ∃ street, edge.kind = .street street := by
      unfold Edge.edgeClass EdgeKind.edgeClass at hclass
      split at hclass <;> simp_all
    exact ⟨a, id, edge, street, move, ha, hedge, hkind, hmove, rfl⟩

end Context

end TripPlanner
