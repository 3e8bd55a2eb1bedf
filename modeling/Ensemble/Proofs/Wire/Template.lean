import Ensemble.Proofs.Network.Timeout
import Ensemble.Proofs.Wire.Fields
import Ensemble.Wire.Options
import Mathlib.Tactic.MkIffOfInductiveProp

/-!
# Templates that are written and read

A template stands in one object: its general fields, the name of its pattern, and the fields of the
settings of this pattern. `Says` is what it takes, name by name, for an object to be read as a
template; `template_round_trip` follows from it, since it looks at known names only and does not
mind a default that is missing.
-/

namespace Ensemble

/-! ## Options without functions -/

namespace PatternOptions

/-- The settings of a pattern without its functions. -/
def settings : PatternOptions → PatternTemplate
  | supervisor o => .supervisor o
  | swarm _ => .swarm
  | pipeline o => .pipeline o
  | mapReduce o => .mapReduce o.concurrency
  | debate o => .debate o

/-- No function is set. -/
def NoFunctions : PatternOptions → Prop
  | swarm o => o.converged = none
  | mapReduce o => o.split = none ∧ o.reduce = none
  | supervisor _ | pipeline _ | debate _ => True

end PatternOptions

theorem PatternTemplate.settings_toOptions (p : PatternTemplate) : p.toOptions.settings = p := by
  cases p <;> rfl

theorem PatternTemplate.noFunctions_toOptions (p : PatternTemplate) : p.toOptions.NoFunctions := by
  cases p <;> simp [toOptions, PatternOptions.NoFunctions]

/-- A timeout is kept to the nanosecond. -/
theorem OrchestrationTemplate.toNanos_timeout (t : OrchestrationTemplate) :
    t.toOptions.timeout.map Duration.toNanos = t.timeoutMs.map fun ms => ms.toNat * 1000000 := by
  simp [toOptions, Function.comp_def, Duration.toNanos_ofMillis]

end Ensemble

namespace Ensemble.Wire

/-! ## Choices -/

theorem lookup_of_mem {α : Type} {names : List (String × α)} (hnodup : (names.map Prod.fst).Nodup)
    {n : String × α} (hn : n ∈ names) : names.lookup n.1 = some n.2 := by
  induction names with
  | nil => cases hn
  | cons m names ih =>
    rw [List.map_cons, List.nodup_cons] at hnodup
    rcases List.mem_cons.mp hn with heq | hn
    · rw [heq]
      exact List.lookup_cons_self
    · have hne : (n.1 == m.1) = false := by
        rw [beq_eq_false_iff_ne]
        rintro heq
        exact hnodup.1 (heq ▸ List.mem_map_of_mem hn)
      rw [List.lookup_cons, hne]
      exact ih hnodup.2 hn

/-- A choice is read back from its name if it has one and no name stands for two choices. -/
theorem choice?_nameOf {α : Type} [DecidableEq α] {names : List (String × α)} {a : α}
    (hnodup : (names.map Prod.fst).Nodup) (ha : a ∈ names.map Prod.snd) :
    choice? names (emptyAsNull (nameOf names a)) = some a := by
  obtain ⟨m, hm, rfl⟩ := List.mem_map.mp ha
  obtain ⟨n, hfind⟩ : ∃ n, (names.find? fun n => n.2 = m.2) = some n := by
    rw [← Option.isSome_iff_exists, List.find?_isSome]
    exact ⟨m, hm, by simp⟩
  have hvalue : n.2 = m.2 := by simpa using List.find?_some hfind
  rw [nameOf, hfind, ← hvalue]
  exact lookup_of_mem hnodup (List.mem_of_find?_eq_some hfind)

theorem templateKind?_name (k : PatternKind) : templateKind? k.name = some k := by
  cases k <;> rfl

/-! ## The settings of the patterns by their parts -/

section Settings

variable {fields : List (String × Json)}

theorem supervisorOptions?_obj {o : SupervisorOptions} :
    supervisorOptions? (.obj fields) = some o ↔
      part? (choice? delegationNames) (some .roundRobin) (valuesOf "delegation" fields) =
        some o.delegation ∧
      part? (choice? aggregationNames) (some .concat) (valuesOf "aggregation" fields) =
        some o.aggregation := by
  refine record?_bind_obj (fun h => ?_) fun n hn hlen => ?_
  · simp only [defaulted_obj _ (h "delegation" (by simp)),
      defaulted_obj _ (h "aggregation" (by simp))]
    cases o
    simp [Option.bind_eq_some_iff]
  · simp only [List.mem_cons, List.not_mem_nil, or_false] at hn
    rcases hn with rfl | rfl <;> simp [part?_many hlen]

theorem pipelineOptions?_obj {o : PipelineOptions} :
    pipelineOptions? (.obj fields) = some o ↔
      part? (choice? errorStrategyNames) (some .stop) (valuesOf "error_strategy" fields) =
        some o.errorStrategy ∧
      part? word32? (some 1) (valuesOf "retry_count" fields) = some o.retryCount ∧
      part? (choice? retryFallbackNames) (some .stop) (valuesOf "retry_fallback" fields) =
        some o.retryFallback := by
  refine record?_bind_obj (fun h => ?_) fun n hn hlen => ?_
  · simp only [defaulted_obj _ (h "error_strategy" (by simp)),
      defaulted_obj _ (h "retry_count" (by simp)), defaulted_obj _ (h "retry_fallback" (by simp))]
    cases o
    simp [Option.bind_eq_some_iff]
  · simp only [List.mem_cons, List.not_mem_nil, or_false] at hn
    rcases hn with rfl | rfl | rfl <;> simp [part?_many hlen]

theorem debateOptions?_obj {o : DebateOptions} :
    debateOptions? (.obj fields) = some o ↔
      part? word? (some defaultDebateRounds) (valuesOf "rounds" fields) = some o.rounds ∧
      part? (nullable? text?) (some none) (valuesOf "judge_agent_id" fields) = some o.judge ∧
      part? (choice? votingNames) (some .judge) (valuesOf "voting_strategy" fields) =
        some o.voting := by
  refine record?_bind_obj (fun h => ?_) fun n hn hlen => ?_
  · simp only [defaulted_obj _ (h "rounds" (by simp)), optional_obj (h "judge_agent_id" (by simp)),
      defaulted_obj _ (h "voting_strategy" (by simp))]
    cases o
    simp [Option.bind_eq_some_iff]
  · simp only [List.mem_cons, List.not_mem_nil, or_false] at hn
    rcases hn with rfl | rfl | rfl <;> simp [part?_many hlen]

theorem mapReduce?_obj : patternTemplate? .mapReduce (.obj fields) =
    (part? (nullable? word?) (some none) (valuesOf "concurrency" fields)).map .mapReduce := by
  ext p
  refine record?_bind_obj (fun h => ?_) fun n hn hlen => ?_
  · simp only [optional_obj (h "concurrency" (by simp)), Option.map_eq_bind]
    rfl
  · rw [List.mem_singleton] at hn
    subst hn
    simp [part?_many hlen]

/-- The fields say, name by name, what the settings of a pattern are. -/
def SaySettings (fields : List (String × Json)) : PatternTemplate → Prop
  | .supervisor o =>
    part? (choice? delegationNames) (some .roundRobin) (valuesOf "delegation" fields) =
      some o.delegation ∧
    part? (choice? aggregationNames) (some .concat) (valuesOf "aggregation" fields) =
      some o.aggregation
  | .swarm => True
  | .pipeline o =>
    part? (choice? errorStrategyNames) (some .stop) (valuesOf "error_strategy" fields) =
      some o.errorStrategy ∧
    part? word32? (some 1) (valuesOf "retry_count" fields) = some o.retryCount ∧
    part? (choice? retryFallbackNames) (some .stop) (valuesOf "retry_fallback" fields) =
      some o.retryFallback
  | .mapReduce concurrency =>
    part? (nullable? word?) (some none) (valuesOf "concurrency" fields) = some concurrency
  | .debate o =>
    part? word? (some defaultDebateRounds) (valuesOf "rounds" fields) = some o.rounds ∧
    part? (nullable? text?) (some none) (valuesOf "judge_agent_id" fields) = some o.judge ∧
    part? (choice? votingNames) (some .judge) (valuesOf "voting_strategy" fields) = some o.voting

theorem patternTemplate?_obj {kind : PatternKind} {p : PatternTemplate} :
    patternTemplate? kind (.obj fields) = some p ↔ p.kind = kind ∧ SaySettings fields p := by
  cases kind with
  | supervisor =>
    cases p <;> simp [patternTemplate?, PatternTemplate.kind, SaySettings, supervisorOptions?_obj]
  | swarm => cases p <;> simp [patternTemplate?, PatternTemplate.kind, SaySettings]
  | pipeline =>
    cases p <;> simp [patternTemplate?, PatternTemplate.kind, SaySettings, pipelineOptions?_obj]
  | mapReduce =>
    rw [mapReduce?_obj]
    cases p <;> simp [PatternTemplate.kind, SaySettings]
  | debate =>
    cases p <;> simp [patternTemplate?, PatternTemplate.kind, SaySettings, debateOptions?_obj]

end Settings

/-! ## Templates by their parts -/

/-- The fields as the settings of a pattern are read from them. -/
def eased (fields : List (String × Json)) : List (String × Json) :=
  fields.map fun e => (e.1, emptyAsNull e.2)

/-- An object says, name by name, what a template is. -/
@[mk_iff]
structure Says (fields : List (String × Json)) (t : OrchestrationTemplate) : Prop where
  maxRounds : part? word? (some defaultMaxRounds) (valuesOf "max_rounds" fields) = some t.maxRounds
  timeoutMs : part? (nullable? word?) (some none) (valuesOf "timeout_ms" fields) = some t.timeoutMs
  kind : part? templateKind? none (valuesOf "pattern" fields) = some t.kind
  settings : SaySettings (eased fields) t.pattern

/-- The names of a pattern's settings. -/
def settingNames : PatternKind → List String
  | .supervisor => ["delegation", "aggregation"]
  | .swarm => []
  | .pipeline => ["error_strategy", "retry_count", "retry_fallback"]
  | .mapReduce => ["concurrency"]
  | .debate => ["rounds", "judge_agent_id", "voting_strategy"]

/-- The names that a template of a pattern knows. -/
def knownNames (kind : PatternKind) : List String :=
  "pattern" :: "max_rounds" :: "timeout_ms" :: settingNames kind

section Templates

variable {fields fields' : List (String × Json)} {t : OrchestrationTemplate}

/-- Only the names of the settings matter to a pattern. -/
theorem saySettings_congr {p : PatternTemplate}
    (h : ∀ n ∈ settingNames p.kind, valuesOf n fields = valuesOf n fields') :
    SaySettings fields p ↔ SaySettings fields' p := by
  cases p <;> simp_all [SaySettings, settingNames, PatternTemplate.kind]

/-- Only the names that it knows matter to a template. -/
theorem Says.congr (htells : Says fields t)
    (h : ∀ n ∈ knownNames t.kind, valuesOf n fields = valuesOf n fields') : Says fields' t := by
  refine ⟨?_, ?_, ?_, ?_⟩
  · rw [← h "max_rounds" (by simp [knownNames])]
    exact htells.maxRounds
  · rw [← h "timeout_ms" (by simp [knownNames])]
    exact htells.timeoutMs
  · rw [← h "pattern" (by simp [knownNames])]
    exact htells.kind
  · refine (saySettings_congr fun n hn => ?_).mp htells.settings
    have hknown : n ∈ knownNames t.kind := by
      simp only [knownNames, List.mem_cons]
      exact .inr (.inr (.inr hn))
    rw [eased, eased, valuesOf_map, valuesOf_map, h n hknown]

/-- The settings of a pattern are looked for where the general fields are not. -/
theorem valuesOf_others {kind : PatternKind} {n : String} (h : n ∈ settingNames kind) :
    valuesOf n (eased ((fields.filter fun e => e.1 ∉ generalNames).filter
      fun e => e.1 ≠ "pattern")) = valuesOf n (eased fields) := by
  have hother : n ∉ generalNames ∧ n ≠ "pattern" := by
    cases kind <;> simp only [settingNames, List.mem_cons, List.not_mem_nil, or_false] at h <;>
      rcases h with rfl | rfl | rfl <;> decide
  rw [eased, eased, valuesOf_map, valuesOf_map,
    valuesOf_filter (p := fun n => decide (n ≠ "pattern")) (by simpa using hother.2),
    valuesOf_filter (p := fun n => decide (n ∉ generalNames)) (by simpa using hother.1)]

theorem templateWith?_obj {maxRounds : UInt64} {timeoutMs : Option UInt64} :
    templateWith? maxRounds timeoutMs fields = some t ↔
      part? templateKind? none (valuesOf "pattern" fields) = some t.kind ∧
      SaySettings (eased (fields.filter fun e => e.1 ≠ "pattern")) t.pattern ∧
      maxRounds = t.maxRounds ∧ timeoutMs = t.timeoutMs := by
  refine record?_bind_obj (fun h => ?_) fun n hn hlen => ?_
  · simp only [required_obj (h "pattern" (by simp))]
    obtain ⟨pattern, tMaxRounds, tTimeoutMs⟩ := t
    simp [Option.bind_eq_some_iff, patternTemplate?_obj, OrchestrationTemplate.kind, eased]
  · rw [List.mem_singleton] at hn
    subst hn
    simp [part?_many hlen]

theorem template?_obj : template? (.obj fields) = some t ↔ Says fields t := by
  have hsettings : SaySettings (eased ((fields.filter fun e => e.1 ∉ generalNames).filter
      fun e => e.1 ≠ "pattern")) t.pattern ↔ SaySettings (eased fields) t.pattern :=
    saySettings_congr fun n hn => valuesOf_others hn
  have hpattern : valuesOf "pattern" (fields.filter fun e => e.1 ∉ generalNames) =
      valuesOf "pattern" fields :=
    valuesOf_filter (p := fun n => decide (n ∉ generalNames)) (by decide)
  rw [says_iff]
  refine record?_bind_obj (fun h => ?_) fun n hn hlen => ?_
  · simp only [defaulted_obj _ (h "max_rounds" (by decide)),
      optional_obj (h "timeout_ms" (by decide)), Option.bind_eq_bind, Option.bind_eq_some_iff,
      templateWith?_obj, hsettings, hpattern]
    constructor
    · rintro ⟨maxRounds, hmax, timeoutMs, htimeout, hkind, hsay, rfl, rfl⟩
      exact ⟨hmax, htimeout, hkind, hsay⟩
    · rintro ⟨hmax, htimeout, hkind, hsay⟩
      exact ⟨_, hmax, _, htimeout, hkind, hsay, rfl, rfl⟩
  · simp only [generalNames, List.mem_cons, List.not_mem_nil, or_false] at hn
    rcases hn with rfl | rfl <;> simp [part?_many hlen]

/-! ## What is written -/

/-- The fields with which a template is written. -/
def templateFields (t : OrchestrationTemplate) : List (String × Json) :=
  written (always "pattern" t.kind.name :: patternTemplateFields t.pattern ++
    [always "max_rounds" (word t.maxRounds), ifPresent "timeout_ms" word t.timeoutMs])

theorem template_eq (t : OrchestrationTemplate) : template t = .obj (templateFields t) := rfl

theorem nodup_templateFields (t : OrchestrationTemplate) :
    ((templateFields t).map Prod.fst).Nodup := by
  obtain ⟨pattern, maxRounds, timeoutMs⟩ := t
  cases timeoutMs <;> cases pattern with
  | supervisor o => simp [templateFields, patternTemplateFields, supervisorFields]
  | swarm => simp [templateFields, patternTemplateFields]
  | pipeline o => simp [templateFields, patternTemplateFields, pipelineFields]
  | mapReduce concurrency => cases concurrency <;> simp [templateFields, patternTemplateFields]
  | debate o =>
    cases hjudge : o.judge <;> simp [templateFields, patternTemplateFields, debateFields, hjudge]

@[simp] theorem emptyAsNull_str (s : String) : emptyAsNull (.str s) = .str s := rfl

@[simp] theorem emptyAsNull_nat (n : Nat) : emptyAsNull (.nat n) = .nat n := rfl

@[simp] theorem emptyAsNull_word (n : UInt64) : emptyAsNull (word n) = word n := rfl

theorem saySettings_templateFields (t : OrchestrationTemplate) :
    SaySettings (eased (templateFields t)) t.pattern := by
  have hdelegation (d : Delegation) :
      choice? delegationNames (emptyAsNull (nameOf delegationNames d)) = some d :=
    choice?_nameOf (by decide) (by cases d <;> decide)
  have haggregation (a : Aggregation) :
      choice? aggregationNames (emptyAsNull (nameOf aggregationNames a)) = some a :=
    choice?_nameOf (by decide) (by cases a <;> decide)
  have hstrategy (e : ErrorStrategy) :
      choice? errorStrategyNames (emptyAsNull (nameOf errorStrategyNames e)) = some e :=
    choice?_nameOf (by decide) (by cases e <;> decide)
  have hfallback (r : RetryFallback) :
      choice? retryFallbackNames (emptyAsNull (nameOf retryFallbackNames r)) = some r :=
    choice?_nameOf (by decide) (by cases r <;> decide)
  have hvoting (v : Voting) : choice? votingNames (emptyAsNull (nameOf votingNames v)) = some v :=
    choice?_nameOf (by decide) (by cases v <;> decide)
  obtain ⟨pattern, maxRounds, timeoutMs⟩ := t
  cases pattern with
  | supervisor o =>
    simp [SaySettings, templateFields, patternTemplateFields, supervisorFields, eased,
      valuesOf_map, hdelegation, haggregation]
  | swarm => trivial
  | pipeline o =>
    simp [SaySettings, templateFields, patternTemplateFields, pipelineFields, eased,
      valuesOf_map, hstrategy, hfallback]
  | mapReduce concurrency =>
    cases concurrency <;>
      simp [SaySettings, templateFields, patternTemplateFields, eased, valuesOf_map, part?]
  | debate o =>
    cases hjudge : o.judge <;>
      simp [SaySettings, templateFields, patternTemplateFields, debateFields, eased,
        valuesOf_map, hvoting, hjudge, part?]

/-- A pattern writes the names of its settings only. -/
theorem valuesOf_patternTemplateFields {n : String} {p : PatternTemplate}
    (h : n ∉ settingNames p.kind) : valuesOf n (written (patternTemplateFields p)) = [] := by
  cases p <;> simp_all [settingNames, PatternTemplate.kind, patternTemplateFields,
    supervisorFields, pipelineFields, debateFields, eq_comm]

/-- A template is what its own fields say, in whatever order they stand. -/
theorem says_templateFields (h : (templateFields t).Perm fields) : Says fields t := by
  -- The general names are those of no pattern's settings, so they are found once.
  have hpattern {n : String} (hn : ∀ kind, n ∉ settingNames kind) :
      valuesOf n (written (patternTemplateFields t.pattern)) = [] :=
    valuesOf_patternTemplateFields (hn _)
  have hown : Says (templateFields t) t := by
    refine ⟨?_, ?_, ?_, saySettings_templateFields t⟩
    · simp [templateFields, hpattern (n := "max_rounds") (by rintro ⟨⟩ <;> decide)]
    · simp [templateFields, hpattern (n := "timeout_ms") (by rintro ⟨⟩ <;> decide),
        part?_ifPresent nullable?_word]
    · simp [templateFields, hpattern (n := "pattern") (by rintro ⟨⟩ <;> decide),
        templateKind?_name]
  exact hown.congr fun n _ => (valuesOf_perm h (nodup_templateFields t) n).symm

/-! ## What need not be written -/

/-- What goes without saying in a template of a pattern. -/
def impliedFields (kind : PatternKind) : List (String × Json) :=
  ("max_rounds", word defaultMaxRounds) :: ("timeout_ms", .null) ::
    match kind with
    | .supervisor => [("delegation", .str "round_robin"), ("aggregation", .str "concat")]
    | .swarm => []
    | .pipeline =>
      [("error_strategy", .str "stop"), ("retry_count", .nat 1), ("retry_fallback", .str "stop")]
    | .mapReduce => [("concurrency", .null)]
    | .debate =>
      [("rounds", word defaultDebateRounds), ("judge_agent_id", .null),
        ("voting_strategy", .str "judge")]

variable {l l' : List (String × Json)} {e : String × Json}

/-- A field of a name that it does not know changes nothing in a template. -/
theorem Says.insert_iff (h : e.1 ∉ knownNames t.kind) :
    Says (l ++ e :: l') t ↔ Says (l ++ l') t := by
  have hvalues {n : String} (hn : n ∈ knownNames t.kind) :
      valuesOf n (l ++ e :: l') = valuesOf n (l ++ l') :=
    valuesOf_insert_of_ne (fun heq => h (heq ▸ hn)) l l'
  exact ⟨fun htells => htells.congr fun n hn => hvalues hn,
    fun htells => htells.congr fun n hn => (hvalues hn).symm⟩

theorem SaySettings.drop {p : PatternTemplate} (hsay : SaySettings (eased (l ++ e :: l')) p)
    (h : e ∈ impliedFields p.kind) : SaySettings (eased (l ++ l')) p := by
  rw [eased, List.map_append, List.map_cons] at hsay
  rw [eased, List.map_append]
  cases p with
  | supervisor o =>
    have himplied : ∀ e ∈ impliedFields .supervisor,
        (e.1 = "delegation" → choice? delegationNames (emptyAsNull e.2) = some .roundRobin) ∧
        (e.1 = "aggregation" → choice? aggregationNames (emptyAsNull e.2) = some .concat) := by
      decide
    obtain ⟨hdelegation, haggregation⟩ := himplied e h
    exact ⟨part?_drop hsay.1 hdelegation, part?_drop hsay.2 haggregation⟩
  | swarm => trivial
  | pipeline o =>
    have himplied : ∀ e ∈ impliedFields .pipeline,
        (e.1 = "error_strategy" →
          choice? errorStrategyNames (emptyAsNull e.2) = some .stop) ∧
        (e.1 = "retry_count" → word32? (emptyAsNull e.2) = some 1) ∧
        (e.1 = "retry_fallback" → choice? retryFallbackNames (emptyAsNull e.2) = some .stop) := by
      decide
    obtain ⟨hstrategy, hcount, hfallback⟩ := himplied e h
    exact ⟨part?_drop hsay.1 hstrategy, part?_drop hsay.2.1 hcount, part?_drop hsay.2.2 hfallback⟩
  | mapReduce concurrency =>
    have himplied : ∀ e ∈ impliedFields .mapReduce,
        e.1 = "concurrency" → nullable? word? (emptyAsNull e.2) = some none := by decide
    exact part?_drop hsay (himplied e h)
  | debate o =>
    have himplied : ∀ e ∈ impliedFields .debate,
        (e.1 = "rounds" → word? (emptyAsNull e.2) = some defaultDebateRounds) ∧
        (e.1 = "judge_agent_id" → nullable? text? (emptyAsNull e.2) = some none) ∧
        (e.1 = "voting_strategy" → choice? votingNames (emptyAsNull e.2) = some .judge) := by
      decide
    obtain ⟨hrounds, hjudge, hvoting⟩ := himplied e h
    exact ⟨part?_drop hsay.1 hrounds, part?_drop hsay.2.1 hjudge, part?_drop hsay.2.2 hvoting⟩

/-- A field that goes without saying may be left out. -/
theorem Says.drop (htells : Says (l ++ e :: l') t) (h : e ∈ impliedFields t.kind) :
    Says (l ++ l') t := by
  have himplied (kind : PatternKind) : ∀ e ∈ impliedFields kind,
      (e.1 = "max_rounds" → word? e.2 = some defaultMaxRounds) ∧
      (e.1 = "timeout_ms" → nullable? word? e.2 = some none) ∧ e.1 ≠ "pattern" := by
    cases kind <;> decide
  obtain ⟨hmax, htimeout, hpattern⟩ := himplied t.kind e h
  exact
    { maxRounds := part?_drop htells.maxRounds hmax
      timeoutMs := part?_drop htells.timeoutMs htimeout
      kind := part?_drop htells.kind fun heq => (hpattern heq).elim
      settings := htells.settings.drop h }

end Templates

/-! ## The round trip -/

/-- **A template says it all.** What is written of a template is read back as the same template, in
whatever order its fields stand, so that no two templates have the same fields. In an object that is
read as a template, a field of a name that the pattern does not know makes no difference, and one
that goes without saying may be left out. The options of a template have its settings, its round
limit and its timeout, to the nanosecond, and no function. -/
theorem template_round_trip (t : OrchestrationTemplate) :
    template? (template t) = some t ∧
    (∀ fields, (templateFields t).Perm fields → template? (.obj fields) = some t) ∧
    (∀ t', (templateFields t).Perm (templateFields t') → t = t') ∧
    (∀ l e l', e.1 ∉ knownNames t.kind →
      (template? (.obj (l ++ e :: l')) = some t ↔ template? (.obj (l ++ l')) = some t)) ∧
    (∀ l e l', e ∈ impliedFields t.kind →
      template? (.obj (l ++ e :: l')) = some t → template? (.obj (l ++ l')) = some t) ∧
    t.toOptions.pattern.settings = t.pattern ∧ t.toOptions.pattern.NoFunctions ∧
    t.toOptions.maxRounds = t.maxRounds ∧
    t.toOptions.timeout.map Duration.toNanos = t.timeoutMs.map fun ms => ms.toNat * 1000000 := by
  have hread {t : OrchestrationTemplate} {fields : List (String × Json)}
      (h : (templateFields t).Perm fields) : template? (.obj fields) = some t :=
    template?_obj.mpr (says_templateFields h)
  refine ⟨?_, fun fields => hread, fun t' h => ?_, fun l e l' h => ?_, fun l e l' h hsome => ?_,
    t.pattern.settings_toOptions, t.pattern.noFunctions_toOptions, rfl, t.toNanos_timeout⟩
  · rw [template_eq]
    exact hread (.refl _)
  · have hboth : some t = some t' := (hread h).symm.trans (hread (.refl _))
    exact Option.some.inj hboth
  · rw [template?_obj, template?_obj]
    exact Says.insert_iff h
  · rw [template?_obj] at hsome ⊢
    exact hsome.drop h

/-- A debate of the usual number of rounds need not say so, and may say how many pieces it works on
at a time. -/
theorem template_round_trip_debate :
    "concurrency" ∉ knownNames .debate ∧ ("rounds", .nat 3) ∈ impliedFields .debate ∧
    template? (.obj [("concurrency", .nat 4), ("pattern", "debate"), ("judge_agent_id", "carol"),
      ("voting_strategy", "judge"), ("max_rounds", .nat 3), ("timeout_ms", .nat 5000)]) =
      some { pattern := .debate { judge := some "carol" }, timeoutMs := some 5000 } := by
  have hunknown : "concurrency" ∉ knownNames .debate := by decide
  have himplied : ("rounds", .nat 3) ∈ impliedFields .debate :=
    .tail _ (.tail _ (.head _))
  obtain ⟨hread, -, -, hinsert, hdrop, -⟩ := template_round_trip
    { pattern := .debate { judge := some "carol" }, timeoutMs := some 5000 }
  refine ⟨hunknown, himplied, (hinsert [] _ _ hunknown).mpr ?_⟩
  exact hdrop [("pattern", "debate")] _ _ himplied hread

end Ensemble.Wire
