import Mathlib.Data.List.Nodup
import TripPlanner.Config
import TripPlanner.Proofs.Exact

/-!
# References of feeds

A configuration that has threads to search is accepted if no two of its feeds have one reference;
otherwise it is refused with the first reference that comes again (`RouterConfig.judges_validate`).
What looking up a feed comes to is said without regard to the order of the entries
(`RouterConfig.LooksUp`). The first entry with the reference always answers so
(`RouterConfig.looksUp_updater`), and in an accepted configuration there is no other answer
(`RouterConfig.LooksUp.unique`).
-/

namespace TripPlanner

namespace RouterConfig

variable {R : Type} {config : RouterConfig R} {updaters passed : List UpdaterConfig}
  {entry other : UpdaterConfig} {reference : String} {kind : FeedKind}

/-- The references in the order of the entries. -/
def references (updaters : List UpdaterConfig) : List String :=
  updaters.map UpdaterConfig.reference

/-! ## The first repetition -/

/-- The entry repeats the reference of an earlier one, and none in front of it does. -/
def IsFirstRepeat (updaters : List UpdaterConfig) (entry : UpdaterConfig) : Prop :=
  ∃ before after, updaters = before ++ entry :: after ∧ (references before).Nodup ∧
    entry.reference ∈ references before

theorem not_nodup_of_mem {before after : List UpdaterConfig}
    (h : entry.reference ∈ references before) :
    ¬ (references (before ++ entry :: after)).Nodup := by
  intro hnodup
  rw [references, List.map_append, List.map_cons] at hnodup
  exact List.disjoint_of_nodup_append hnodup h List.mem_cons_self

theorem IsFirstRepeat.not_nodup (h : IsFirstRepeat updaters entry) :
    ¬ (references updaters).Nodup := by
  obtain ⟨before, after, rfl, -, hmem⟩ := h
  exact not_nodup_of_mem hmem

/-- Of two places to split the list at, the later one has the repetition of the other one in front
of it. -/
theorem IsFirstRepeat.unique (h : IsFirstRepeat updaters entry)
    (h' : IsFirstRepeat updaters other) : entry = other := by
  obtain ⟨before, after, rfl, hnodup, hmem⟩ := h
  obtain ⟨before', after', hsplit, hnodup', hmem'⟩ := h'
  rcases List.append_eq_append_iff.1 hsplit with ⟨between, rfl, hrest⟩ | ⟨between, rfl, hrest⟩
  · cases between with
    | nil => exact (List.cons.inj hrest).1
    | cons first between =>
      obtain ⟨rfl, -⟩ := List.cons.inj hrest
      exact (not_nodup_of_mem hmem hnodup').elim
  · cases between with
    | nil => exact (List.cons.inj hrest).1.symm
    | cons first between =>
      obtain ⟨rfl, -⟩ := List.cons.inj hrest
      exact (not_nodup_of_mem hmem' hnodup).elim

/-- What has been passed has no repetition, so the first one in the rest is the first one of all. -/
theorem repeated?_cases (rest : List UpdaterConfig) (hpassed : (references passed).Nodup) :
    repeated? (references passed) (references rest) = none ∧ (references (passed ++ rest)).Nodup ∨
      ∃ entry, repeated? (references passed) (references rest) = some entry.reference ∧
        IsFirstRepeat (passed ++ rest) entry := by
  induction rest generalizing passed with
  | nil => exact .inl ⟨rfl, by rwa [List.append_nil]⟩
  | cons first rest ih =>
    by_cases hmem : first.reference ∈ references passed
    · exact .inr ⟨first, if_pos hmem, passed, rest, rfl, hpassed, hmem⟩
    · -- The entry is passed as well, and still nothing has come again.
      have hnext : references (passed ++ [first]) = references passed ++ [first.reference] :=
        List.map_append
      have hnodup : (references (passed ++ [first])).Nodup := by
        rw [hnext, ← List.concat_eq_append]
        exact hpassed.concat hmem
      have hgoes : repeated? (references passed) (references (first :: rest)) =
          repeated? (references (passed ++ [first])) (references rest) := by
        rw [hnext]
        exact if_neg hmem
      rw [hgoes, List.append_cons passed first rest]
      exact ih hnodup

/-! ## Judging a configuration -/

/-- What is said of a configuration. -/
inductive Judges (config : RouterConfig R) : Except (Error R) Unit → Prop where
  | noThreads : config.searchThreads = some 0 →
      Judges config (.error (.config .noSearchThreads))
  | repeats {entry : UpdaterConfig} : config.searchThreads ≠ some 0 →
      IsFirstRepeat config.updaters entry →
      Judges config (.error (.config (.configuredTwice entry.reference)))
  | accepts : config.searchThreads ≠ some 0 → (references config.updaters).Nodup →
      Judges config (.ok ())

theorem judges_validate (config : RouterConfig R) : config.Judges config.validate := by
  have hnil : (references []).Nodup := List.nodup_nil
  have hcases := repeated?_cases config.updaters hnil
  unfold validate
  split
  · exact .noThreads ‹_›
  · rename_i hthreads
    split
    · rename_i reference hreference
      rcases hcases with ⟨hnone, -⟩ | ⟨entry, hsome, hrepeat⟩
      · cases hnone.symm.trans hreference
      · obtain rfl : entry.reference = reference := Option.some.inj (hsome.symm.trans hreference)
        exact .repeats hthreads hrepeat
    · rename_i hreference
      rcases hcases with ⟨-, hnodup⟩ | ⟨entry, hsome, -⟩
      · exact .accepts hthreads hnodup
      · cases hsome.symm.trans hreference

theorem Judges.unique {result result' : Except (Error R) Unit} (h : config.Judges result)
    (h' : config.Judges result') : result = result' := by
  cases h with
  | noThreads hnone =>
    cases h' with
    | noThreads => rfl
    | repeats hsome | accepts hsome => exact (hsome hnone).elim
  | repeats hsome hrepeat =>
    cases h' with
    | noThreads hnone => exact (hsome hnone).elim
    | repeats _ hrepeat' => rw [hrepeat.unique hrepeat']
    | accepts _ hnodup => exact (hrepeat.not_nodup hnodup).elim
  | accepts hsome hnodup =>
    cases h' with
    | noThreads hnone => exact (hsome hnone).elim
    | repeats _ hrepeat => exact (hrepeat.not_nodup hnodup).elim
    | accepts => rfl

theorem validate_eq_iff {result : Except (Error R) Unit} :
    config.validate = result ↔ config.Judges result :=
  ⟨fun h => h ▸ judges_validate config, fun h => (judges_validate config).unique h⟩

theorem validate_eq_ok_iff : config.validate = .ok () ↔
    config.searchThreads ≠ some 0 ∧ (references config.updaters).Nodup := by
  rw [validate_eq_iff]
  constructor
  · intro h
    cases h with
    | accepts hthreads hnodup => exact ⟨hthreads, hnodup⟩
  · rintro ⟨hthreads, hnodup⟩
    exact .accepts hthreads hnodup

/-! ## Looking up feeds -/

/-- What looking up a feed among some entries comes to, whatever their order. -/
inductive LooksUp (updaters : List UpdaterConfig) (reference : String) (kind : FeedKind) :
    Except (Error R) UpdaterConfig → Prop where
  | found {entry : UpdaterConfig} : entry ∈ updaters → entry.reference = reference →
      entry.kind = kind → LooksUp updaters reference kind (.ok entry)
  | otherKind {entry : UpdaterConfig} : entry ∈ updaters → entry.reference = reference →
      entry.kind ≠ kind →
      LooksUp updaters reference kind (.error (.config (.otherKind reference entry.kind kind)))
  | notConfigured : (∀ entry ∈ updaters, entry.reference ≠ reference) →
      LooksUp updaters reference kind (.error (.config (.notConfigured reference)))

theorem looksUp_updater (config : RouterConfig R) (reference : String) (kind : FeedKind) :
    LooksUp config.updaters reference kind (config.updater reference kind) := by
  unfold updater
  split
  · rename_i hnone
    exact .notConfigured fun entry hmem => by simpa using List.find?_eq_none.1 hnone entry hmem
  · rename_i entry hsome
    have hmem : entry ∈ config.updaters := List.mem_of_find?_eq_some hsome
    have hreference : entry.reference = reference := by simpa using List.find?_some hsome
    split
    · exact .found hmem hreference ‹_›
    · exact .otherKind hmem hreference ‹_›

theorem LooksUp.perm {result : Except (Error R) UpdaterConfig} {others : List UpdaterConfig}
    (h : LooksUp updaters reference kind result) (hperm : updaters.Perm others) :
    LooksUp others reference kind result := by
  cases h with
  | found hmem hreference hkind => exact .found (hperm.mem_iff.1 hmem) hreference hkind
  | otherKind hmem hreference hkind => exact .otherKind (hperm.mem_iff.1 hmem) hreference hkind
  | notConfigured hnone => exact .notConfigured fun entry hmem => hnone entry (hperm.mem_iff.2 hmem)

/-- No two entries have one reference, so there is one that can answer, or none. -/
theorem LooksUp.unique {result result' : Except (Error R) UpdaterConfig}
    (hnodup : (references updaters).Nodup) (h : LooksUp updaters reference kind result)
    (h' : LooksUp updaters reference kind result') : result = result' := by
  have hone : ∀ {a b : UpdaterConfig}, a ∈ updaters → b ∈ updaters → a.reference = reference →
      b.reference = reference → a = b :=
    fun ha hb hreference hreference' =>
      List.inj_on_of_nodup_map hnodup ha hb (hreference.trans hreference'.symm)
  cases h with
  | found hmem hreference hkind =>
    cases h' with
    | found hmem' hreference' => rw [hone hmem hmem' hreference hreference']
    | otherKind hmem' hreference' hkind' =>
      obtain rfl := hone hmem hmem' hreference hreference'
      exact (hkind' hkind).elim
    | notConfigured hnone => exact (hnone _ hmem hreference).elim
  | otherKind hmem hreference hkind =>
    cases h' with
    | found hmem' hreference' hkind' =>
      obtain rfl := hone hmem hmem' hreference hreference'
      exact (hkind hkind').elim
    | otherKind hmem' hreference' => rw [hone hmem hmem' hreference hreference']
    | notConfigured hnone => exact (hnone _ hmem hreference).elim
  | notConfigured hnone =>
    cases h' with
    | found hmem' hreference' | otherKind hmem' hreference' =>
      exact (hnone _ hmem' hreference').elim
    | notConfigured => rfl

/-- Each entry is found under its reference and kind, nothing else is, and the order of the entries
does not matter. -/
structure IsUnambiguous (config : RouterConfig R) : Prop where
  found : ∀ entry ∈ config.updaters, config.updater entry.reference entry.kind = .ok entry
  refused : ∀ {reference kind},
    (∀ entry ∈ config.updaters, (entry.reference, entry.kind) ≠ (reference, kind)) →
      ∃ cause, config.updater reference kind = .error cause
  reordered : ∀ {updaters}, updaters.Perm config.updaters →
    ({ config with updaters := updaters } : RouterConfig R).validate = .ok () ∧
      ∀ reference kind, ({ config with updaters := updaters } : RouterConfig R).updater reference
        kind = config.updater reference kind

theorem isUnambiguous_of_validate (h : config.validate = .ok ()) : config.IsUnambiguous := by
  obtain ⟨hthreads, hnodup⟩ := validate_eq_ok_iff.1 h
  refine ⟨fun entry hmem => ?_, fun {reference kind} hother => ?_, fun {updaters} hperm => ?_⟩
  · exact (looksUp_updater config entry.reference entry.kind).unique hnodup (.found hmem rfl rfl)
  · have hlooks := looksUp_updater config reference kind
    cases hresult : config.updater reference kind with
    | error cause => exact ⟨cause, rfl⟩
    | ok entry =>
      rw [hresult] at hlooks
      cases hlooks with
      | found hmem hreference hkind =>
        exact (hother entry hmem (Prod.ext hreference hkind)).elim
  · have hsame : (references updaters).Nodup := (hperm.map _).nodup_iff.2 hnodup
    refine ⟨validate_eq_ok_iff.2 ⟨hthreads, hsame⟩, fun reference kind => ?_⟩
    have hlooks := looksUp_updater { config with updaters := updaters } reference kind
    exact (hlooks.perm hperm).unique hnodup (looksUp_updater config reference kind)

/-- A configuration is accepted if there are threads to search and all references are distinct. If
they are not, the reference that is reported is that of the first entry that repeats an earlier one.
In what is accepted every entry is found under its reference and kind, and nothing else. -/
theorem judges_and_isUnambiguous (config : RouterConfig R) :
    (config.validate = .ok () ↔
      config.searchThreads ≠ some 0 ∧ (references config.updaters).Nodup) ∧
    (∀ {result}, config.validate = result ↔ config.Judges result) ∧
    (config.validate = .ok () → config.IsUnambiguous) :=
  ⟨validate_eq_ok_iff, validate_eq_iff, isUnambiguous_of_validate⟩

variable [Quantity R] [OfDecimal R]

/-- A configuration that has been read from a text is unambiguous, for it has been accepted. -/
theorem isUnambiguous_of_ofText {text : String} (h : ofText text = .ok config) :
    config.IsUnambiguous := by
  unfold ofText at h
  split at h
  · cases h
  · rename_i read _
    cases hvalid : read.validate with
    | error cause =>
      rw [hvalid] at h
      cases h
    | ok =>
      rw [hvalid] at h
      cases h
      exact isUnambiguous_of_validate hvalid

end RouterConfig

/-! ## Feeds of a town -/

namespace Switchboard

/-- An entry that says no more than it has to. -/
def entry (kind : FeedKind) (reference : String) : UpdaterConfig := ⟨kind, reference, none, []⟩

/-- A configuration with the given entries. -/
def config (updaters : List UpdaterConfig) : RouterConfig ℚ :=
  { RouterConfig.default with searchThreads := some 2, updaters := updaters }

/-- A feed of each kind. -/
def feeds : List UpdaterConfig :=
  [entry .carPark "garages", entry .bikeRental "bicycles", entry .roadworks "closures"]

/-- The second reference comes again before the first one does, and as a feed of another kind. -/
def twice : List UpdaterConfig := feeds ++ [entry .carPark "bicycles", entry .roadworks "garages"]

/-- The feeds are found in any order, the car parks not as roadworks, and of the references that
come again the first one to do so is reported. -/
theorem judges_switchboard :
    (config feeds).validate = .ok () ∧
    (config feeds).updater "closures" .roadworks = .ok (entry .roadworks "closures") ∧
    (∃ cause, (config feeds).updater "garages" .roadworks = .error cause) ∧
    (config feeds.reverse).updater "garages" .roadworks =
      (config feeds).updater "garages" .roadworks ∧
    (config twice).validate = .error (.config (.configuredTwice "bicycles")) := by
  have hfeeds := RouterConfig.judges_and_isUnambiguous (config feeds)
  have htwice := RouterConfig.judges_and_isUnambiguous (config twice)
  have hvalid : (config feeds).validate = .ok () := hfeeds.1.2 (by decide)
  have H : (config feeds).IsUnambiguous := hfeeds.2.2 hvalid
  have hmem : entry .roadworks "closures" ∈ feeds := by simp [feeds]
  have hother : ∀ entry ∈ feeds, (entry.reference, entry.kind) ≠ ("garages", .roadworks) := by
    decide
  have hrepeat : RouterConfig.IsFirstRepeat twice (entry .carPark "bicycles") :=
    ⟨feeds, [entry .roadworks "garages"], rfl, by decide, by decide⟩
  have hthreads : (config twice).searchThreads ≠ some 0 := by decide
  exact ⟨hvalid, H.found _ hmem, H.refused hother, (H.reordered (List.reverse_perm feeds)).2 _ _,
    htwice.2.1.2 (.repeats hthreads hrepeat)⟩

end Switchboard

end TripPlanner
