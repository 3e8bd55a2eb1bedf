import Ensemble.Proofs.Run.Drive

/-!
# The gate of an orchestration

`Options.Fits` says which options fit which participants, and `Options.Finds` which fault is the
first of those that do not. `Orchestration.build` decides the one and reports the other; it looks at
nothing of the participants but their ids.
-/

namespace Ensemble

/-! ## What fits -/

/-- The settings of a pattern fit participants with the ids given. -/
def PatternOptions.Fits (ids : List String) : PatternOptions → Prop
  | .mapReduce o => o.split.isSome = true ∧ o.reduce.isSome = true ∧ o.concurrency ≠ some 0
  | .debate o => ∀ judge, o.judge = some judge → judge ∈ ids
  | .supervisor _ => True
  | .swarm _ => True
  | .pipeline _ => True

namespace Options

/-- Options fit participants with the ids given. -/
structure Fits (o : Options) (ids : List String) : Prop where
  nonempty : ids ≠ []
  distinct : ids.Nodup
  pattern : o.pattern.Fits ids

/-- The first thing that is wrong with options for participants with the ids given: everything that
is looked at before is in order. -/
inductive Finds (o : Options) (ids : List String) : OptionsFault → Prop where
  | noParticipants (hids : ids = []) : Finds o ids (.noParticipants o.kind)
  /-- The id stands at the first place where an earlier one is repeated. -/
  | duplicateId {id : String} {before behind : List String} (hids : ids = before ++ id :: behind)
      (hrepeats : id ∈ before) (hfirst : before.Nodup) : Finds o ids (.duplicateId id)
  | noSplit {p : MapReduceOptions} (hids : ids ≠ []) (hdistinct : ids.Nodup)
      (hpattern : o.pattern = .mapReduce p) (hsplit : p.split = none) : Finds o ids .noSplit
  | noReduce {p : MapReduceOptions} (hids : ids ≠ []) (hdistinct : ids.Nodup)
      (hpattern : o.pattern = .mapReduce p) (hsplit : p.split ≠ none) (hreduce : p.reduce = none) :
      Finds o ids .noReduce
  | noConcurrency {p : MapReduceOptions} (hids : ids ≠ []) (hdistinct : ids.Nodup)
      (hpattern : o.pattern = .mapReduce p) (hsplit : p.split ≠ none) (hreduce : p.reduce ≠ none)
      (hconcurrency : p.concurrency = some 0) : Finds o ids .noConcurrency
  | unknownJudge {p : DebateOptions} {judge : String} (hids : ids ≠ []) (hdistinct : ids.Nodup)
      (hpattern : o.pattern = .debate p) (hjudge : p.judge = some judge) (hunknown : judge ∉ ids) :
      Finds o ids (.unknownJudge judge)

end Options

/-! ## Ids that repeat -/

/-- An id repeats an earlier one, and nobody before it does. -/
def Repeats (seen ids : List String) (id : String) : Prop :=
  ∃ before behind, ids = before ++ id :: behind ∧ (id ∈ seen ∨ id ∈ before) ∧ before.Nodup ∧
    ∀ x ∈ before, x ∉ seen

section

variable {seen ids : List String} {first id : String}

theorem repeats_cons_of_mem (h : first ∈ seen) : Repeats seen (first :: ids) id ↔ first = id := by
  constructor
  · rintro ⟨before, behind, hids, -, -, hnew⟩
    cases before with
    | nil => exact (List.cons_eq_cons.mp hids).1
    | cons x before =>
      obtain ⟨rfl, -⟩ := List.cons_eq_cons.mp hids
      exact absurd h (hnew first List.mem_cons_self)
  · rintro rfl
    exact ⟨[], ids, rfl, .inl h, .nil, nofun⟩

theorem repeats_cons_of_notMem (h : first ∉ seen) :
    Repeats seen (first :: ids) id ↔ Repeats (first :: seen) ids id := by
  constructor
  · rintro ⟨before, behind, hids, hid, hnodup, hnew⟩
    cases before with
    | nil =>
      obtain ⟨rfl, -⟩ := List.cons_eq_cons.mp hids
      exact (hid.elim h nofun).elim
    | cons x before =>
      obtain ⟨rfl, rfl⟩ := List.cons_eq_cons.mp hids
      obtain ⟨hfirst, hbefore⟩ := List.nodup_cons.mp hnodup
      refine ⟨before, behind, rfl, ?_, hbefore, fun x hx hseen => ?_⟩
      · simpa [or_left_comm, or_assoc] using hid
      · rcases List.mem_cons.mp hseen with rfl | hseen
        · exact hfirst hx
        · exact hnew x (List.mem_cons_of_mem _ hx) hseen
  · rintro ⟨before, behind, rfl, hid, hnodup, hnew⟩
    have hfirst : first ∉ before := fun hmem => hnew first hmem List.mem_cons_self
    refine ⟨first :: before, behind, rfl, ?_, List.nodup_cons.mpr ⟨hfirst, hnodup⟩, ?_⟩
    · simpa [or_left_comm, or_assoc] using hid
    · intro x hx
      rcases List.mem_cons.mp hx with rfl | hx
      · exact h
      · exact fun hseen => hnew x hx (List.mem_cons_of_mem _ hseen)

theorem firstDuplicate?_eq_some : firstDuplicate? seen ids = some id ↔ Repeats seen ids id := by
  induction ids generalizing seen with
  | nil => simp [firstDuplicate?, Repeats]
  | cons first ids ih =>
    rw [firstDuplicate?]
    split
    · next h => rw [repeats_cons_of_mem h, Option.some.injEq]
    · next h => rw [repeats_cons_of_notMem h, ih]

theorem firstDuplicate?_eq_none : firstDuplicate? [] ids = none ↔ ids.Nodup := by
  refine ⟨fun h => (nodup_of_firstDuplicate? h).1, fun h => ?_⟩
  cases hfound : firstDuplicate? [] ids with
  | none => rfl
  | some id =>
    obtain ⟨before, behind, rfl, hid, -, -⟩ := firstDuplicate?_eq_some.mp hfound
    have hbefore : id ∈ before := hid.resolve_left nofun
    have hapart := (List.nodup_append.mp h).2.2 id hbefore id List.mem_cons_self
    exact absurd rfl hapart

end

/-! ## What the gate finds -/

namespace Options

variable {o : Options} {ids : List String} {f : OptionsFault}

theorem patternFault?_eq_none {p : PatternOptions} : patternFault? ids p = none ↔ p.Fits ids := by
  cases p with
  | supervisor p => exact ⟨fun _ => trivial, fun _ => rfl⟩
  | swarm p => exact ⟨fun _ => trivial, fun _ => rfl⟩
  | pipeline p => exact ⟨fun _ => trivial, fun _ => rfl⟩
  | mapReduce p =>
    obtain ⟨split, reduce, concurrency⟩ := p
    cases split <;> cases reduce <;> simp [patternFault?, PatternOptions.Fits]
  | debate p =>
    obtain ⟨rounds, judge, voting⟩ := p
    cases judge <;> simp [patternFault?, PatternOptions.Fits]

/-- Without participants nothing else is looked at. -/
theorem fault?_of_nil : o.fault? [] = some (.noParticipants o.kind) := rfl

theorem fault?_of_repeats {id : String} (h : Repeats [] ids id) :
    o.fault? ids = some (.duplicateId id) := by
  have hids : ids ≠ [] := by
    rintro rfl
    obtain ⟨before, behind, hids, -⟩ := h
    exact absurd hids (by simp)
  rw [fault?, if_neg (by simpa using hids), firstDuplicate?_eq_some.mpr h]

/-- When the ids are in order, the settings of the pattern are looked at. -/
theorem fault?_of_nodup (hids : ids ≠ []) (hdistinct : ids.Nodup) :
    o.fault? ids = patternFault? ids o.pattern := by
  rw [fault?, if_neg (by simpa using hids), firstDuplicate?_eq_none.mpr hdistinct]

theorem finds_of_patternFault? (hids : ids ≠ []) (hdistinct : ids.Nodup)
    (h : patternFault? ids o.pattern = some f) : o.Finds ids f := by
  cases hpattern : o.pattern with
  | supervisor p => simp [hpattern, patternFault?] at h
  | swarm p => simp [hpattern, patternFault?] at h
  | pipeline p => simp [hpattern, patternFault?] at h
  | mapReduce p =>
    simp only [hpattern, patternFault?] at h
    split at h
    · next hsplit =>
      cases h
      exact .noSplit hids hdistinct hpattern (Option.isNone_iff_eq_none.mp hsplit)
    · next hsplit =>
      have hsplit : p.split ≠ none := fun hnone => hsplit (Option.isNone_iff_eq_none.mpr hnone)
      split at h
      · next hreduce =>
        cases h
        exact .noReduce hids hdistinct hpattern hsplit (Option.isNone_iff_eq_none.mp hreduce)
      · next hreduce =>
        have hreduce : p.reduce ≠ none := fun hnone =>
          hreduce (Option.isNone_iff_eq_none.mpr hnone)
        split at h
        · next hconcurrency =>
          cases h
          exact .noConcurrency hids hdistinct hpattern hsplit hreduce hconcurrency
        · cases h
  | debate p =>
    simp only [hpattern, patternFault?] at h
    split at h
    · cases h
    · next judge hjudge =>
      split at h
      · cases h
      · next hunknown =>
        cases h
        exact .unknownJudge hids hdistinct hpattern hjudge hunknown

/-- The fault that is reported is the first that there is. -/
theorem fault?_eq_some : o.fault? ids = some f ↔ o.Finds ids f := by
  constructor
  · intro h
    by_cases hids : ids = []
    · subst hids
      obtain rfl := Option.some.inj h
      exact .noParticipants rfl
    · cases hduplicate : firstDuplicate? [] ids with
      | some id =>
        have hrepeats := firstDuplicate?_eq_some.mp hduplicate
        rw [fault?_of_repeats hrepeats] at h
        obtain rfl := Option.some.inj h
        obtain ⟨before, behind, hids, hid, hfirst, -⟩ := hrepeats
        exact .duplicateId hids (hid.resolve_left nofun) hfirst
      | none =>
        have hdistinct := firstDuplicate?_eq_none.mp hduplicate
        rw [fault?_of_nodup hids hdistinct] at h
        exact finds_of_patternFault? hids hdistinct h
  · intro h
    cases h with
    | noParticipants hids => exact hids ▸ fault?_of_nil
    | @duplicateId id before behind hids hrepeats hfirst =>
      exact fault?_of_repeats ⟨before, behind, hids, .inr hrepeats, hfirst, fun _ _ => nofun⟩
    | noSplit hids hdistinct hpattern hsplit =>
      rw [fault?_of_nodup hids hdistinct, hpattern]
      simp [patternFault?, hsplit]
    | noReduce hids hdistinct hpattern hsplit hreduce =>
      rw [fault?_of_nodup hids hdistinct, hpattern]
      simp [patternFault?, hsplit, hreduce]
    | noConcurrency hids hdistinct hpattern hsplit hreduce hconcurrency =>
      rw [fault?_of_nodup hids hdistinct, hpattern]
      simp [patternFault?, hsplit, hreduce, hconcurrency]
    | unknownJudge hids hdistinct hpattern hjudge hunknown =>
      rw [fault?_of_nodup hids hdistinct, hpattern]
      simp [patternFault?, hjudge, hunknown]

theorem fault?_eq_none : o.fault? ids = none ↔ o.Fits ids := by
  constructor
  · intro h
    have hids : ids ≠ [] := by
      rintro rfl
      cases h
    have hdistinct : ids.Nodup := by
      refine firstDuplicate?_eq_none.mp ?_
      cases hduplicate : firstDuplicate? [] ids with
      | none => rfl
      | some id =>
        rw [fault?_of_repeats (firstDuplicate?_eq_some.mp hduplicate)] at h
        cases h
    rw [fault?_of_nodup hids hdistinct] at h
    exact ⟨hids, hdistinct, patternFault?_eq_none.mp h⟩
  · intro h
    rw [fault?_of_nodup h.nonempty h.distinct]
    exact patternFault?_eq_none.mpr h.pattern

end Options

namespace Orchestration

variable {members : List Member} {options : Options}

/-- What fits has a strategy. -/
theorem exists_strategy {ids : List String} (h : options.Fits ids) :
    ∃ strategy, Strategy.ofOptions options = .ok strategy := by
  obtain ⟨pattern, maxRounds, timeout⟩ := options
  cases pattern with
  | supervisor p => exact ⟨_, rfl⟩
  | swarm p => exact ⟨_, rfl⟩
  | pipeline p => exact ⟨_, rfl⟩
  | debate p => exact ⟨_, rfl⟩
  | mapReduce p =>
    obtain ⟨hsplit, hreduce, -⟩ := h.pattern
    obtain ⟨split, hsplit⟩ := Option.isSome_iff_exists.mp hsplit
    obtain ⟨reduce, hreduce⟩ := Option.isSome_iff_exists.mp hreduce
    refine ⟨.mapReduce ⟨split, reduce, p.concurrency.map (·.toNat)⟩, ?_⟩
    simp only [Strategy.ofOptions, hsplit, hreduce]

theorem build_of_fits (h : options.Fits (members.map (·.id))) :
    ∃ strategy, Strategy.ofOptions options = .ok strategy ∧
      build members options = .ok ⟨members, strategy, options.timeout⟩ := by
  obtain ⟨strategy, hstrategy⟩ := exists_strategy h
  refine ⟨strategy, hstrategy, ?_⟩
  simp only [build, Options.validate, Options.fault?_eq_none.mpr h, hstrategy, bind, Except.bind]

theorem build_of_finds {f : OptionsFault} (h : options.Finds (members.map (·.id)) f) :
    build members options = .error f.toError := by
  simp only [build, Options.validate, Options.fault?_eq_some.mpr h, bind, Except.bind]

/-- Options fit, or there is a first fault. -/
theorem fits_or_finds (options : Options) (ids : List String) :
    options.Fits ids ∨ ∃ f, options.Finds ids f := by
  cases h : options.fault? ids with
  | none => exact .inl (Options.fault?_eq_none.mp h)
  | some f => exact .inr ⟨f, Options.fault?_eq_some.mp h⟩

theorem build_eq_ok_iff :
    (∃ o, build members options = .ok o) ↔ options.Fits (members.map (·.id)) := by
  constructor
  · rintro ⟨o, ho⟩
    refine (fits_or_finds options _).resolve_right fun ⟨f, hf⟩ => ?_
    rw [build_of_finds hf] at ho
    cases ho
  · intro h
    obtain ⟨strategy, -, hbuild⟩ := build_of_fits h
    exact ⟨_, hbuild⟩

theorem build_eq_error_iff {e : Error} :
    build members options = .error e ↔
      ∃ f, options.Finds (members.map (·.id)) f ∧ e = f.toError := by
  constructor
  · intro he
    rcases fits_or_finds options (members.map (·.id)) with h | ⟨f, hf⟩
    · obtain ⟨strategy, -, hbuild⟩ := build_of_fits h
      rw [hbuild] at he
      cases he
    · rw [build_of_finds hf] at he
      cases he
      exact ⟨f, hf, rfl⟩
  · rintro ⟨f, hf, rfl⟩
    exact build_of_finds hf

/-- Of the participants only the ids are looked at. -/
theorem build_ids {members' : List Member} (hids : members'.map (·.id) = members.map (·.id)) :
    build members' options =
      (build members options).map fun o => { o with members := members' } := by
  rcases fits_or_finds options (members.map (·.id)) with h | ⟨f, hf⟩
  · obtain ⟨strategy, hstrategy, hbuild⟩ := build_of_fits h
    obtain ⟨strategy', hstrategy', hbuild'⟩ := build_of_fits (hids ▸ h)
    rw [hstrategy] at hstrategy'
    cases hstrategy'
    rw [hbuild, hbuild']
    rfl
  · rw [build_of_finds hf, build_of_finds (hids ▸ hf)]
    rfl

end Orchestration

end Ensemble
