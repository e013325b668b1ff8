import TripPlanner.Proofs.Ownership

/-!
# Rival feeds

Feeds of one kind share a registry, and each of them takes its list for all there is. So it is the
last word that counts (`Graph.LastWordCounts`): registered are the records that were brought in
last, whichever feed did so, and none once a feed has been torn down. Of feeds that have ids of
their own, only the one with the last word finds its records registered.
-/

namespace TripPlanner

/-! ## What turns bring in -/

namespace FeedData

variable {R : Type}

def carParks? : FeedData R → Option (List (CarPark R))
  | .carParks records => some records
  | _ => none

def stations? : FeedData R → Option (List (Station R))
  | .stations records => some records
  | _ => none

end FeedData

namespace Turn

variable {R ρ : Type} [Place R ρ] {list? : Turn R → Option (List ρ)} {turn : Turn R}
  {turns : List (Turn R)} {updater : Updater} {records : List ρ} {reference id : String}

omit [Place R ρ] in
/-- The list of places that are to be all there is after a turn, if it is about places of that kind:
what is brought in, and nothing when the feed is torn down. -/
def complete? (kind : FeedKind) (records? : FeedData R → Option (List ρ)) :
    Turn R → Option (List ρ)
  | .setUp _ => none
  | .poll _ data => records? data
  | .tearDown updater => if updater.kind = kind then some [] else none

/-- The car parks that are to be all there is. -/
def carParks? : Turn R → Option (List (CarPark R)) := complete? .carPark FeedData.carParks?

/-- The stations that are to be all there is. -/
def stations? : Turn R → Option (List (Station R)) := complete? .bikeRental FeedData.stations?

omit [Place R ρ] in
/-- The last such list of some turns, and the feed whose it is. -/
def lastWord? (list? : Turn R → Option (List ρ)) (turns : List (Turn R)) :
    Option (Updater × List ρ) :=
  turns.reverse.findSome? fun turn => (list? turn).map (turn.updater, ·)

omit [Place R ρ] in
/-- The records that a feed has brought in last, none if it has been torn down since. -/
def latest (list? : Turn R → Option (List ρ)) (reference : String) (turns : List (Turn R)) :
    List ρ :=
  ((lastWord? list? (turns.filter fun turn => turn.updater.reference = reference)).map
    Prod.snd).getD []

def ids (list? : Turn R → Option (List ρ)) (turn : Turn R) : List String :=
  ((list? turn).getD []).map Place.id

/-- Feeds under different references have ids of their own. -/
def KeepApart (list? : Turn R → Option (List ρ)) (turns : List (Turn R)) : Prop :=
  ∀ turn ∈ turns, ∀ rival ∈ turns, turn.updater.reference ≠ rival.updater.reference →
    ∀ id ∈ ids list? turn, id ∉ ids list? rival

instance : Decidable (KeepApart list? turns) :=
  inferInstanceAs (Decidable (∀ turn ∈ turns, ∀ rival ∈ turns,
    turn.updater.reference ≠ rival.updater.reference → ∀ id ∈ ids list? turn, id ∉ ids list? rival))

/-! ## The last word -/

omit [Place R ρ]

theorem lastWord?_concat : lastWord? list? (turns ++ [turn]) =
    ((list? turn).map (turn.updater, ·)).or (lastWord? list? turns) := by
  rw [lastWord?, List.reverse_append, List.reverse_singleton, List.singleton_append,
    List.findSome?_cons]
  cases list? turn <;> rfl

theorem exists_of_lastWord? (h : lastWord? list? turns = some (updater, records)) :
    ∃ turn ∈ turns, turn.updater = updater ∧ list? turn = some records := by
  obtain ⟨turn, hmem, hturn⟩ := List.exists_of_findSome?_eq_some h
  obtain ⟨found, hlist, heq⟩ := Option.map_eq_some_iff.1 hturn
  obtain ⟨rfl, rfl⟩ := Prod.mk.inj heq
  exact ⟨turn, List.mem_reverse.1 hmem, rfl, hlist⟩

/-- The last word is the latest of the feed that has it. -/
theorem latest_of_lastWord? (h : lastWord? list? turns = some (updater, records)) :
    latest list? updater.reference turns = records := by
  suffices hown : lastWord? list? (turns.filter fun turn =>
      turn.updater.reference = updater.reference) = some (updater, records) by
    rw [latest, hown]
    rfl
  induction turns using List.reverseRecOn with
  | nil => cases h
  | append_singleton turns turn ih =>
    rw [lastWord?_concat] at h
    rw [List.filter_append]
    cases hlist : list? turn with
    | some found =>
      -- This turn has the last word, and is one of the feed whose it is.
      rw [hlist] at h
      cases h
      rw [List.filter_cons, if_pos (decide_eq_true rfl), List.filter_nil, lastWord?_concat, hlist]
      rfl
    | none =>
      rw [hlist, Option.map_none, Option.none_or] at h
      by_cases hown : turn.updater.reference = updater.reference
      · rw [List.filter_cons, if_pos (decide_eq_true hown), List.filter_nil, lastWord?_concat,
          hlist, Option.map_none, Option.none_or, ih h]
      · rw [List.filter_cons_of_neg (by simpa using hown), List.filter_nil, List.append_nil, ih h]

/-- What a feed has brought in last it has brought in at one of its turns. -/
theorem exists_of_mem_latest [Place R ρ] (h : id ∈ (latest list? reference turns).map Place.id) :
    ∃ turn ∈ turns, turn.updater.reference = reference ∧ id ∈ ids list? turn := by
  unfold latest at h
  cases hword : lastWord? list? (turns.filter fun turn => turn.updater.reference = reference) with
  | none =>
    rw [hword] at h
    cases h
  | some word =>
    rw [hword] at h
    obtain ⟨turn, hmem, -, hlist⟩ := exists_of_lastWord? hword
    obtain ⟨hmem, hown⟩ := List.mem_filter.1 hmem
    refine ⟨turn, hmem, of_decide_eq_true hown, ?_⟩
    rw [ids, hlist]
    exact h

/-- Only the feed with the last word has its ids among those of the last word. -/
theorem KeepApart.mem_lastWord_iff [Place R ρ] (H : KeepApart list? turns)
    (hid : id ∈ (latest list? reference turns).map Place.id) :
    id ∈ (((lastWord? list? turns).map Prod.snd).getD []).map Place.id ↔
      ∃ updater records, lastWord? list? turns = some (updater, records) ∧
        updater.reference = reference := by
  cases hword : lastWord? list? turns with
  | none => simp
  | some word =>
    obtain ⟨updater, records⟩ := word
    simp only [Option.map_some, Option.getD_some, Option.some.injEq, Prod.mk.injEq]
    constructor
    · intro hmem
      refine ⟨updater, records, ⟨rfl, rfl⟩, ?_⟩
      obtain ⟨turn, hturn, hown, hbrought⟩ := exists_of_mem_latest hid
      obtain ⟨last, hlast, rfl, hlist⟩ := exists_of_lastWord? hword
      by_contra hne
      refine H turn hturn last hlast (fun h => hne (h.symm.trans hown)) id hbrought ?_
      rw [ids, hlist]
      exact hmem
    · rintro ⟨_, _, ⟨rfl, rfl⟩, rfl⟩
      rwa [latest_of_lastWord? hword] at hid

end Turn

namespace Graph

variable {R ρ : Type} [Quantity R] [Geodesy R] [Place R ρ] {list? : Turn R → Option (List ρ)}
  {g : Graph R}

/-- After some turns of feeds it is the last word that counts. -/
structure LastWordCounts (ρ : Type) [Place R ρ] (list? : Turn R → Option (List ρ)) (g : Graph R)
    (turns : List (Turn R)) : Prop where
  /-- What is registered are the records of the last word, completed by what they do not tell. -/
  record? : ∀ id, ((g.fed turns).registry ρ).record? id =
    (Place.last? (((Turn.lastWord? list? turns).map Prod.snd).getD []) id).map Place.complete
  /-- What is registered has a vertex that is there and stands for it. -/
  placed : (g.fed turns).Placed ρ
  /-- If the feeds have ids of their own, what one of them has brought in last is registered exactly
  if the feed has the last word. -/
  registered_iff : Turn.KeepApart list? turns → ∀ {reference id},
    id ∈ (Turn.latest list? reference turns).map Place.id →
    (id ∈ ((g.fed turns).registry ρ).ids ↔ ∃ updater records,
      Turn.lastWord? list? turns = some (updater, records) ∧ updater.reference = reference)

/-- Feeds of one kind bring in places of one kind, and drop these when they are torn down. -/
structure BroughtIn (R ρ σ : Type) [Quantity R] [Geodesy R] [Place R ρ] [Place R σ]
    (kind : FeedKind) (records? : FeedData R → Option (List ρ)) : Prop
    extends FedBy R ρ σ kind where
  setUp : ∀ (updater : Updater) (g : Graph R), (updater.setUp g).registry ρ = g.registry ρ
  apply : ∀ {data records}, records? data = some records → ∀ g : Graph R,
    data.apply g = g.applyRecords records
  kind_ne : ∀ {data}, records? data = none → data.kind ≠ kind
  tearDown : ∀ {updater : Updater}, updater.kind = kind → ∀ g : Graph R,
    updater.tearDown g = g.dropRecords ρ

theorem broughtIn_carPark : BroughtIn R (CarPark R) (Station R) .carPark FeedData.carParks? where
  toFedBy := fedBy_carPark
  setUp updater g := (Turn.setUp_eq updater g).2.1
  apply {data _} h g := by
    cases data <;> cases h
    rfl
  kind_ne {data} h := by cases data <;> cases h <;> nofun
  tearDown h g := by
    unfold Updater.tearDown
    rw [h]

theorem broughtIn_station :
    BroughtIn R (Station R) (CarPark R) .bikeRental FeedData.stations? where
  toFedBy := fedBy_station
  setUp updater g := (Turn.setUp_eq updater g).2.2
  apply {data _} h g := by
    cases data <;> cases h
    rfl
  kind_ne {data} h := by cases data <;> cases h <;> nofun
  tearDown h g := by
    unfold Updater.tearDown
    rw [h]

/-- A turn replaces what is registered by its list, if it has one. -/
theorem BroughtIn.record?_unit {σ : Type} [Place R σ] [AsidePlace R ρ] {kind : FeedKind}
    {records? : FeedData R → Option (List ρ)} (H : BroughtIn R ρ σ kind records?)
    (turn : Turn R) (g : Graph R) (id : String) :
    ((turn.unit g).registry ρ).record? id =
      ((turn.complete? kind records?).map fun records =>
        (Place.last? records id).map Place.complete).getD ((g.registry ρ).record? id) := by
  match turn with
  | .setUp updater => exact congrArg (Registry.record? · id) (H.setUp updater g)
  | .poll updater data =>
    unfold Turn.complete?
    dsimp only [Turn.unit]
    cases hdata : records? data with
    | none =>
      have hother : (Turn.poll updater data).kind ≠ kind := H.kind_ne hdata
      exact congrArg (Registry.record? · id) (H.other hother g).registry
    | some records =>
      rw [H.apply hdata]
      exact record?_applyRecords
  | .tearDown updater =>
    unfold Turn.complete?
    dsimp only [Turn.unit]
    split
    · rename_i hkind
      rw [H.tearDown hkind, registry_dropRecords]
      rfl
    · rename_i hkind
      have hother : (Turn.tearDown updater : Turn R).kind ≠ kind := hkind
      exact congrArg (Registry.record? · id) (H.other hother g).registry

theorem placed_fed (hservices : g.services = .empty) (turns : List (Turn R)) :
    (g.fed turns).Placed (CarPark R) ∧ (g.fed turns).Placed (Station R) := by
  induction turns using List.reverseRecOn with
  | nil => exact (registries_of_empty hservices).imp placed_of_empty placed_of_empty
  | append_singleton turns turn ih =>
    obtain ⟨hparks, hstations⟩ := ih
    rw [fed_concat]
    rcases turn.unit_cases (g.fed turns) with ⟨-, h⟩ | ⟨-, h⟩ | ⟨-, h, -⟩
    · exact h.bumpVersion.placed_both Place.apart_carPark_station hparks hstations
    · exact (h.bumpVersion.placed_both Place.apart_station_carPark hstations hparks).symm
    · exact h.bumpVersion.placed_both Place.apart_carPark_station hparks hstations

theorem BroughtIn.lastWordCounts {σ : Type} [Place R σ] [AsidePlace R ρ] {kind : FeedKind}
    {records? : FeedData R → Option (List ρ)} (H : BroughtIn R ρ σ kind records?)
    (hstart : g.registry ρ = .empty) {turns : List (Turn R)} (hplaced : (g.fed turns).Placed ρ) :
    g.LastWordCounts ρ (Turn.complete? kind records?) turns := by
  have hrecord : ∀ id, ((g.fed turns).registry ρ).record? id =
      (Place.last? (((Turn.lastWord? (Turn.complete? kind records?) turns).map Prod.snd).getD [])
        id).map Place.complete := by
    intro id
    clear hplaced
    induction turns using List.reverseRecOn with
    | nil =>
      rw [fed_nil, hstart]
      rfl
    | append_singleton turns turn ih =>
      rw [fed_concat, Turn.lastWord?_concat]
      refine (H.record?_unit turn (g.fed turns) id).trans ?_
      cases Turn.complete? kind records? turn with
      | some records => rfl
      | none => exact ih
  refine ⟨hrecord, hplaced, fun hapart reference id hid => ?_⟩
  rw [← hapart.mem_lastWord_iff hid, Registry.mem_ids_iff, hrecord, Place.exists_complete_iff]

/-- From any graph without services, in whatever order feeds set up, bring in and take back: the
last word counts for car parks, and for stations. -/
theorem lastWordCounts_fed (hservices : g.services = .empty) (turns : List (Turn R)) :
    g.LastWordCounts (CarPark R) Turn.carParks? turns ∧
      g.LastWordCounts (Station R) Turn.stations? turns := by
  obtain ⟨hparks, hstations⟩ := registries_of_empty hservices
  obtain ⟨hplaced, hplaced'⟩ := placed_fed hservices turns
  exact ⟨broughtIn_carPark.lastWordCounts hparks hplaced,
    broughtIn_station.lastWordCounts hstations hplaced'⟩

end Graph

/-! ## Two feeds in town -/

namespace Town

def northFeed : Updater := ⟨.carPark, "north", none, ∅⟩

def southFeed : Updater := ⟨.carPark, "south", none, ∅⟩

/-- Both bring in what they have, and bring it up to date. -/
def rivals : List (Turn ℚ) :=
  [.setUp northFeed, .setUp southFeed, .poll northFeed (.carParks [park "n" 1, park "m" 2]),
    .poll southFeed (.carParks [park "s" 3]), .poll northFeed (.carParks [park "n" 4])]

/-- The northern feed has the last word, so that the car park in the south is gone. -/
theorem lastWordCounts_rivals : Turn.KeepApart Turn.carParks? rivals ∧
    "n" ∈ (Turn.latest Turn.carParks? "north" rivals).map CarPark.id ∧
    "s" ∈ (Turn.latest Turn.carParks? "south" rivals).map CarPark.id ∧
    ((street.fed rivals).registry (CarPark ℚ)).ids = ["n"] ∧
    street.LastWordCounts (CarPark ℚ) Turn.carParks? rivals ∧
    street.LastWordCounts (Station ℚ) Turn.stations? rivals := by
  obtain ⟨hparks, hstations⟩ := Graph.lastWordCounts_fed (g := street) rfl rivals
  exact ⟨by decide, by decide, by decide, by decide +kernel, hparks,
    hstations⟩

/-- Two feeds with ids of their own have both brought in what they have, and neither is torn down:
but what the first one has brought in is not registered. When the second one is torn down, nothing
is registered, although the first one has had the last word before. -/
theorem not_both_rivals : Turn.KeepApart Turn.carParks? rivals ∧
    "s" ∈ (Turn.latest Turn.carParks? "south" rivals).map CarPark.id ∧
    "s" ∉ ((street.fed rivals).registry (CarPark ℚ)).ids ∧
    "n" ∈ (Turn.latest Turn.carParks? "north" (rivals ++ [.tearDown southFeed])).map CarPark.id ∧
    ((street.fed (rivals ++ [.tearDown southFeed])).registry (CarPark ℚ)).ids = [] := by
  decide +kernel

end Town

end TripPlanner
