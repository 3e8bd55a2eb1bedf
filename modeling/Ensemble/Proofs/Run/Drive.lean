import Ensemble.Proofs.Run.Patterns

/-!
# What every run leaves

`Orchestration.drive_keeps` carries the books of the patterns to whole runs: the routine that drives
an accepted orchestration keeps to every regime that its members keep to, and in the end the result
is made of a scene whose books are a `Ledger`. `Regime.history` is the regime that asks nothing of
the members: what has been written into a journal stays there.
-/

namespace Ensemble

theorem nodup_of_firstDuplicate? {seen ids : List String} (h : firstDuplicate? seen ids = none) :
    ids.Nodup ∧ ∀ id ∈ ids, id ∉ seen := by
  induction ids generalizing seen with
  | nil => exact ⟨List.nodup_nil, by simp⟩
  | cons id ids ih =>
    simp only [firstDuplicate?] at h
    split at h
    · exact absurd h (by simp)
    · next hseen =>
      obtain ⟨hnodup, hids⟩ := ih h
      refine ⟨List.nodup_cons.mpr ⟨fun hid => hids id hid List.mem_cons_self, hnodup⟩, ?_⟩
      intro x hx
      rcases List.mem_cons.mp hx with rfl | hx
      · exact hseen
      · exact fun hxseen => hids x hx (List.mem_cons_of_mem id hxseen)

theorem Strategy.works_of_options {o : Options} {ids : List String} {strategy : Strategy}
    (hfault : o.fault? ids = none) (h : Strategy.ofOptions o = .ok strategy) :
    strategy.Works := by
  obtain ⟨pattern, maxRounds, timeout⟩ := o
  cases pattern with
  | supervisor p => cases h; trivial
  | swarm p => cases h; trivial
  | pipeline p => cases h; trivial
  | debate p => cases h; trivial
  | mapReduce p =>
    obtain ⟨split, reduce, concurrency⟩ := p
    cases split <;> cases reduce <;> cases h
    intro hzero
    obtain ⟨limit, rfl, hlimit⟩ := Option.map_eq_some_iff.mp hzero
    obtain rfl : limit = 0 := UInt64.toNat_inj.mp hlimit
    simp only [Options.fault?, Options.patternFault?] at hfault
    split at hfault
    · simp at hfault
    · split at hfault <;> simp at hfault

/-- A strategy has the kind of its options. -/
theorem Strategy.kind_of_options {options : Options} {strategy : Strategy}
    (h : ofOptions options = .ok strategy) : strategy.kind = options.kind := by
  obtain ⟨pattern, maxRounds, timeout⟩ := options
  cases pattern with
  | mapReduce p =>
    obtain ⟨split, reduce, concurrency⟩ := p
    cases split <;> cases reduce <;> cases h
    rfl
  | supervisor p => cases h; rfl
  | swarm p => cases h; rfl
  | pipeline p => cases h; rfl
  | debate p => cases h; rfl

namespace Orchestration

/-- What every orchestration has that passes the gate. -/
structure Accepted (o : Orchestration) : Prop where
  unique : o.ids.Nodup
  works : o.strategy.Works

theorem accepted_of_build {members : List Member} {options : Options} {o : Orchestration}
    (h : build members options = .ok o) : o.Accepted ∧ o.members = members := by
  simp only [build, Options.validate] at h
  cases hfault : options.fault? (members.map (·.id)) with
  | some f => simp [hfault, bind, Except.bind] at h
  | none =>
    simp only [hfault, bind, Except.bind] at h
    cases hstrategy : Strategy.ofOptions options with
    | error f => simp [hstrategy] at h
    | ok strategy =>
      simp only [hstrategy, Except.ok.injEq] at h
      subst h
      refine ⟨⟨?_, Strategy.works_of_options hfault hstrategy⟩, rfl⟩
      simp only [Options.fault?] at hfault
      split at hfault
      · simp at hfault
      · split at hfault
        · simp at hfault
        · next hnone => exact (nodup_of_firstDuplicate? hnone).1

/-- Nothing passes the gate without participants. -/
theorem nonempty_of_build {members : List Member} {options : Options} {o : Orchestration}
    (h : build members options = .ok o) : members ≠ [] := by
  rintro rfl
  cases h

/-- An orchestration has the strategy and the timeout of its options. -/
theorem strategy_of_build {members : List Member} {options : Options} {o : Orchestration}
    (h : build members options = .ok o) :
    Strategy.ofOptions options = .ok o.strategy ∧ o.timeout = options.timeout := by
  simp only [build, bind, Except.bind] at h
  cases hvalid : options.validate (members.map (·.id)) with
  | error e => simp [hvalid] at h
  | ok _ =>
    cases hstrategy : Strategy.ofOptions options with
    | error f => simp [hvalid, hstrategy] at h
    | ok strategy =>
      simp only [hvalid, hstrategy, Except.ok.injEq] at h
      subst h
      exact ⟨rfl, rfl⟩

theorem strategy_eq_of_build {members : List Member} {options : Options} {o : Orchestration}
    {strategy : Strategy} (h : build members options = .ok o)
    (hof : Strategy.ofOptions options = .ok strategy) : o.strategy = strategy :=
  Except.ok.inj ((strategy_of_build h).1.symm.trans hof)

/-- What passes the gate does so under all options with which the gate finds the same faults. -/
theorem build_alike {members : List Member} {options options' : Options} {o : Orchestration}
    {strategy : Strategy} (h : build members options = .ok o)
    (hfault : options'.fault? (members.map (·.id)) = options.fault? (members.map (·.id)))
    (hstrategy : Strategy.ofOptions options' = .ok strategy) :
    build members options' = .ok ⟨members, strategy, options'.timeout⟩ := by
  have hvalid : options'.validate (members.map (·.id)) = options.validate (members.map (·.id)) := by
    rw [Options.validate, Options.validate, hfault]
  simp only [build, bind, Except.bind] at h ⊢
  rw [hvalid]
  cases hpass : options.validate (members.map (·.id)) with
  | error e => simp [hpass] at h
  | ok _ => simp only [hstrategy]

/-- Orchestrations whose strategies are of one kind and make the same runs cannot be told apart by
running them. -/
theorem runs_eq {o o' : Orchestration} (hmembers : o'.members = o.members)
    (htimeout : o'.timeout = o.timeout) (hkind : o'.strategy.kind = o.strategy.kind)
    (hrun : ∀ deadline input, o'.strategy.run o'.members deadline input =
      o.strategy.run o.members deadline input) :
    o'.execute = o.execute ∧ o'.stream = o.stream := by
  have hdrive : o'.drive = o.drive := by
    funext stamp input
    unfold drive conclude
    simp only [hrun, htimeout, hkind]
  have hids : o'.ids = o.ids := by rw [ids, hmembers, ids]
  constructor
  · unfold execute
    rw [hdrive, hids]
  · unfold stream
    rw [hdrive, hids]

/-- The end of a run that started at a moment: its books are complete, and the result reports them
and the two flags as they are at the end. -/
structure Finished (o : Orchestration) (started : Nat) (c : Clock) (s : Scene)
    (result : RunResult) : Prop where
  ledger : Nonempty (Ledger o.strategy o.members s.2)
  messages : result.messages = s.2.messages.toList
  agentResults : result.agentResults = s.2.results
  rounds : result.rounds = s.2.rounds
  cancelled : result.cancelled = s.1.cancelled
  timedOut : result.timedOut = (Deadline.after started o.timeout).passed c.now

/-- A run keeps to every regime that its members keep to. -/
theorem drive_keeps {o : Orchestration} (ho : o.Accepted) {c : Clock}
    {K : Run.Regime (.after c.now o.timeout)} (hmembers : ∀ m ∈ o.members, m.Within K)
    (stamp : RunStamp) (input : String) (m : Memory) :
    (o.drive stamp input c (m, .initial o.ids)).Keeps Run.Untouched K.step
      (fun c₀ s₀ c' s' result => K.step c₀ s₀ c' s' ∧ o.Finished c.now c' s' result)
      c (m, .initial o.ids) := by
  let deadline := Deadline.after c.now o.timeout
  have hrun := Strategy.meets_run hmembers ho.works input c (m, .initial o.ids) rfl
  refine (Progress.keeps_andThen (o.strategy.run o.members deadline input c _) _).mpr ?_
  refine hrun.mono (fun _ _ h => h) (fun _ _ _ _ h => h) ?_
  rintro c₀ s₀ c' s' output ⟨hstep, hledger⟩
  exact ⟨hstep, hledger, rfl, rfl, rfl, rfl, rfl⟩

end Orchestration

namespace Run

/-- What is in the journal stays there. -/
def Regime.history (deadline : Deadline) : Regime deadline where
  step _ s _ s' := s.2.journal.toList <+: s'.2.journal.toList
  refl _ s := List.prefix_refl s.2.journal.toList
  trans h h' := h.trans h'
  note {o c s} _ := ⟨[entry o c s], by simp [noted]⟩
  gather h := by simp only [h, List.prefix_refl]
  elapse _ s _ := List.prefix_refl s.2.journal.toList

instance (deadline : Deadline) : (Regime.history deadline).Open :=
  ⟨fun _ _ r => List.prefix_refl r.journal.toList⟩

end Run

/-- What was in the journal before is still there at the end. -/
theorem Progress.Arrives.grown {α : Type} {deadline : Deadline} {Q : Clock → Scene → α → Prop}
    {c : Clock} {s : Scene} {p : Progress Scene α}
    (h : p.Arrives Run.Untouched (Run.Regime.history deadline).toGuarantee Q c s) :
    p.Arrives Run.Untouched (Run.Regime.history deadline).toGuarantee
      (fun c' s' a => Q c' s' a ∧ s.2.journal.toList <+: s'.2.journal.toList) c s := by
  refine h.lasting (I := fun s' => s.2.journal.toList <+: s'.2.journal.toList)
    (List.prefix_refl _) (fun s₁ s₂ hs hgrown => ?_) fun _ s₁ _ s₂ hstep hgrown => ?_
  · rwa [show s₂.2 = s₁.2 from hs]
  · exact hgrown.trans (show s₁.2.journal.toList <+: s₂.2.journal.toList from hstep)

theorem Progress.keeps_trivial {σ α : Type} {rely : σ → σ → Prop} {guarantee : StepKind σ}
    {post : Clock → σ → Clock → σ → α → Prop} (hg : ∀ c s c' s', guarantee c s c' s')
    (hp : ∀ c s c' s' a, post c s c' s' a) (c₀ : Clock) (s₀ : σ) (p : Progress σ α) :
    p.Keeps rely guarantee post c₀ s₀ := by
  induction p generalizing c₀ s₀ with
  | done c s a => exact hp _ _ _ _ _
  | waiting w c s k ih => exact ⟨hg _ _ _ _, fun c' s' _ => ih c' s' c' s'⟩

/-- Every member keeps to a regime that does not look at the memory. -/
theorem Member.within_of_books {deadline : Deadline} {K : Run.Regime deadline}
    (h : ∀ c m c' m' r, K.step c (m, r) c' (m', r)) (m : Member) : m.Within K := by
  have hmemory : ∀ c s c' s', K.memory.step c s c' s' := h
  intro message c s _
  exact Progress.keeps_trivial hmemory (fun c s c' s' _ => ⟨hmemory c s c' s', trivial⟩) c s _

/-- No member can do anything to a journal. -/
theorem Member.within_history (m : Member) (deadline : Deadline) :
    m.Within (Run.Regime.history deadline) :=
  m.within_of_books fun _ _ _ _ r => List.prefix_refl r.journal.toList

end Ensemble
