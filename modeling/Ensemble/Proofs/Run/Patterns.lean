import Ensemble.Orchestration
import Ensemble.Proofs.Run.Regime

/-!
# Patterns keep the books of a run

All five patterns begin a round only between two rounds, make calls only in the middle of one and
end every round that they begin; the verdict of a debate comes after the last round, and the message
of a reduction after everything. `Ledger` is what is left of a run in the end, and
`Strategy.meets_run` says that every pattern leaves it, under every regime.
-/

namespace Ensemble

/-- A call that a run may plan: one of the members is asked, in a message addressed to it. -/
def Dispatch.For (members : List Member) (d : Dispatch) : Prop :=
  d.member ∈ members ∧ d.message.recipient = some d.member.id

/-- The participant that is asked for the verdict, by its name. -/
def Strategy.judge? : Strategy → Option String
  | debate o => if o.voting = .judge then o.judge else none
  | _ => none

/-- The messages that stand behind all calls in the transcript. -/
def Strategy.Coda : Strategy → List Message → Prop
  | mapReduce job, coda => ∃ replies, coda = [(job.reduce replies).withMetadata "phase" "reduce"]
  | _, coda => coda = []

/-- The journals behind the last round: the judge is asked at most once, and nobody else is. -/
inductive VerdictLog (s : Strategy) : (calls : List Call) → List Occurrence → Prop where
  | none : VerdictLog s [] []
  | sought {d calls log} : s.judge? = some d.member.id → SingleLog d calls log →
      VerdictLog s calls log

/-- The books of a run of a strategy that is over. -/
structure Ledger (strategy : Strategy) (members : List Member) (r : RunState) where
  roundCalls : List Call
  roundLog : List Occurrence
  verdictCalls : List Call
  verdictLog : List Occurrence
  coda : List Message
  inRounds : RoundLog r.rounds roundCalls roundLog
  behind : VerdictLog strategy verdictCalls verdictLog
  closes : strategy.Coda coda
  addressed : ∀ call ∈ roundCalls ++ verdictCalls, call.dispatch.For members
  occurrences : r.occurrences = roundLog ++ verdictLog
  messages : r.messages.toList = (roundCalls ++ verdictCalls).flatMap (·.exchange) ++ coda
  results : r.results = (roundCalls ++ verdictCalls).foldl (fun l c => l.push c.id c.reply)
    (.seeded (members.map (·.id)))

/-- All calls of the run, in the order in which they settled. -/
def Ledger.calls {strategy : Strategy} {members : List Member} {r : RunState}
    (l : Ledger strategy members r) : List Call :=
  l.roundCalls ++ l.verdictCalls

namespace Run

/-! ## Between rounds and in the middle of one -/

/-- A run of the members in which so many rounds have begun and ended. -/
def Told (members : List Member) (rounds : Nat) (r : RunState) : Prop :=
  ∃ calls log, RoundLog rounds calls log ∧ (∀ call ∈ calls, call.dispatch.For members) ∧
    (RunState.initial (members.map (·.id))).Gains log calls r

/-- A run of the members in the middle of a round, with no call underway. -/
def Amid (members : List Member) (round : Nat) (r : RunState) : Prop :=
  ∃ calls log calls' body, RoundLog round calls log ∧ CallLog [] calls' body ∧
    (∀ call ∈ calls ++ calls', call.dispatch.For members) ∧
    (RunState.initial (members.map (·.id))).Gains (log ++ .roundBegun round :: body)
      (calls ++ calls') r

variable {members : List Member} {round : Nat} {r r' : RunState}

theorem told_initial (members : List Member) :
    Told members 0 (.initial (members.map (·.id))) :=
  ⟨[], [], .start, by simp, .refl _⟩

theorem Told.refused (h : Told members round r) (n : Nat)
    (hgain : r.Gains [.roundRefused n] [] r') : Told members round r' := by
  obtain ⟨calls, log, hlog, hcalls, htold⟩ := h
  have hgain' := htold.trans hgain
  rw [List.append_nil] at hgain'
  exact ⟨calls, _, .refused n hlog, hcalls, hgain'⟩

theorem Told.begun (h : Told members round r) (hgain : r.Gains [.roundBegun round] [] r') :
    Amid members round r' := by
  obtain ⟨calls, log, hlog, hcalls, htold⟩ := h
  refine ⟨calls, log, [], [], hlog, .start, ?_, ?_⟩
  · rwa [List.append_nil]
  · exact htold.trans hgain

theorem Amid.dealt {calls : List Call} {log : List Occurrence} (h : Amid members round r)
    (hlog : CallLog [] calls log) (hcalls : ∀ call ∈ calls, call.dispatch.For members)
    (hgain : r.Gains log calls r') : Amid members round r' := by
  obtain ⟨calls₁, log₁, calls₂, body, hlog₁, hbody, hfor, hamid⟩ := h
  refine ⟨calls₁, log₁, calls₂ ++ calls, body ++ log, hlog₁, hbody.append hlog, ?_, ?_⟩
  · intro call hcall
    rw [← List.append_assoc] at hcall
    exact (List.mem_append.mp hcall).elim (hfor call) (hcalls call)
  · have hgain' := hamid.trans hgain
    rwa [List.append_assoc, List.cons_append, List.append_assoc] at hgain'

theorem Amid.ended (h : Amid members round r) (hgain : r.Gains [.roundEnded round] [] r') :
    Told members (round + 1) r' := by
  obtain ⟨calls, log, calls', body, hlog, hbody, hfor, hamid⟩ := h
  refine ⟨calls ++ calls', _, .round hlog hbody, hfor, ?_⟩
  have hgain' := hamid.trans hgain
  rwa [List.append_nil, List.append_assoc, List.cons_append] at hgain'

/-- Books that differ in the blackboard only tell the same. -/
theorem Told.posted (h : Told members round r) (board : Metadata) :
    Told members round { r with blackboard := board } := by
  obtain ⟨calls, log, hlog, hcalls, hgain⟩ := h
  exact ⟨calls, log, hlog, hcalls, ⟨hgain.1, hgain.2, hgain.3, hgain.4⟩⟩

theorem Amid.posted (h : Amid members round r) (board : Metadata) :
    Amid members round { r with blackboard := board } := by
  obtain ⟨calls, log, calls', body, hlog, hbody, hfor, hgain⟩ := h
  exact ⟨calls, log, calls', body, hlog, hbody, hfor, ⟨hgain.1, hgain.2, hgain.3, hgain.4⟩⟩

/-- A run of the members in which some number of rounds have begun and ended. -/
def Tells (members : List Member) (r : RunState) : Prop := ∃ rounds, Told members rounds r

/-! ## Operations -/

variable {deadline : Deadline} {K : Regime deadline} {α : Type} {Q : α → Scene → Prop}

/-- A routine that stays in the middle of a round. -/
abbrev Inside (K : Regime deadline) (members : List Member) (round : Nat)
    (routine : Routine Scene α) : Prop :=
  routine.Meets Untouched K.toGuarantee (fun s => Amid members round s.2)
    fun _ s => Amid members round s.2

/-- A routine that goes on from behind so many rounds to behind some round. -/
abbrev Onward (K : Regime deadline) (members : List Member) (round : Nat)
    (routine : Routine Scene α) : Prop :=
  routine.Meets Untouched K.toGuarantee (fun s => Told members round s.2)
    fun _ s => Tells members s.2

theorem onward_pure {a : α} : Onward K members round (pure a : Routine Scene α) :=
  Routine.meets_pure fun _ h => ⟨round, h⟩

theorem inside_pure {a : α} : Inside K members round (pure a : Routine Scene α) :=
  Routine.meets_pure fun _ h => h

/-- A round begins and the run goes on in the middle of it, or it goes on without the round. -/
theorem meets_round {body otherwise : Routine Scene α}
    (hbody : body.Meets Untouched K.toGuarantee (fun s => Amid members round s.2) Q)
    (hotherwise : otherwise.Meets Untouched K.toGuarantee (fun s => Told members round s.2) Q) :
    (beginRound deadline round >>= fun begun => if begun then body else otherwise).Meets
      Untouched K.toGuarantee (fun s => Told members round s.2) Q :=
  meets_begin (fun _ hr => hbody.consequence (fun _ h => hr.begun h.1) fun _ _ h => h)
    fun _ hr => hotherwise.consequence (fun _ h => hr.refused round h.1) fun _ _ h => h

theorem meets_endRound :
    (endRound round).Meets Untouched K.toGuarantee (fun s => Amid members round s.2)
      fun _ s => Told members (round + 1) s.2 :=
  fun c s hs => ⟨K.note (Entry.permitted_of_neither rfl rfl), hs.ended (gains_noted rfl c s)⟩

/-- A plan that asks some of the members, each in a message addressed to it. -/
theorem for_map {asked : List Member} (hasked : ∀ m ∈ asked, m ∈ members)
    {request : Member → Dispatch} (hmember : ∀ m, (request m).member = m)
    (hrecipient : ∀ m, (request m).message.recipient = some m.id) :
    ∀ d ∈ asked.map request, d.For members := by
  intro d hd
  obtain ⟨m, hm, rfl⟩ := List.mem_map.mp hd
  constructor
  · rw [hmember]
    exact hasked m hm
  · rw [hrecipient, hmember]

theorem amid_dealt {plan : List Dispatch} (hplan : ∀ d ∈ plan, d.For members)
    (h : Amid members round r) {done : List Settled} (hdealt : Dealt plan r done r') :
    Amid members round r' := by
  obtain ⟨log, hlog, hgain⟩ := hdealt.log
  exact h.dealt hlog.calls (fun call hcall => hplan _ (hdealt.called call hcall)) hgain

/-- A round's calls at once. -/
theorem inside_dispatchRound {plan : List Dispatch} (hmembers : ∀ m ∈ members, m.Within K)
    (hplan : ∀ d ∈ plan, d.For members) :
    Inside K members round (dispatchRound deadline plan) :=
  meets_from fun r₀ hr₀ =>
    (meets_dispatchRound r₀ fun d hd => hmembers _ (hplan d hd).1).consequence (fun _ h => h)
      fun _ _ ⟨_, _, h⟩ => amid_dealt hplan hr₀ h

theorem inside_dispatchBounded {plan : List Dispatch} {limit : Nat} (hlimit : 0 < limit)
    (hmembers : ∀ m ∈ members, m.Within K) (hplan : ∀ d ∈ plan, d.For members) :
    Inside K members round (dispatchBounded deadline limit plan) :=
  meets_from fun r₀ hr₀ =>
    (meets_dispatchBounded r₀ hlimit fun d hd => hmembers _ (hplan d hd).1).consequence
      (fun _ h => h) fun _ _ h => amid_dealt hplan hr₀ h

/-- A single call in a round. -/
theorem inside_call {d : Dispatch} (hmembers : ∀ m ∈ members, m.Within K)
    (hd : d.For members) :
    Inside K members round (call deadline d.member d.message) := by
  refine meets_from fun r₀ hr₀ => ?_
  refine (meets_call (hmembers _ hd.1) r₀).consequence (fun _ h => h) ?_
  rintro _ s ⟨calls, log, hlog, hgain⟩
  refine hr₀.dealt hlog.callLog (fun call hcall => ?_) hgain
  rw [hlog.dispatch_eq call hcall]
  exact hd

end Run

open Run

variable {deadline : Deadline} {K : Regime deadline} {members : List Member} {round : Nat}

namespace Supervisor

theorem plan_for (delegation : Delegation) (members : List Member) (input : String)
    (round : Nat) : ∀ d ∈ plan delegation members input round, d.For members := by
  refine for_map (fun m hm => ?_) (fun _ => rfl) fun _ => rfl
  unfold targets at hm
  split at hm
  · exact List.mem_of_getElem? (Option.mem_toList.mp hm)
  · exact hm

theorem onward_rounds (hmembers : ∀ m ∈ members, m.Within K) (delegation : Delegation)
    (input : String) (left round : Nat) (replies : List (String × Message)) :
    Onward K members round (rounds delegation members deadline input left round replies) := by
  induction left generalizing round replies with
  | zero => exact onward_pure
  | succ left ih =>
    refine meets_round ?_ onward_pure
    refine (inside_dispatchRound hmembers (plan_for _ _ _ _)).bind fun calls => ?_
    exact meets_endRound.bind fun _ => ih _ _

end Supervisor

namespace Swarm

theorem holds_post (key value : String) : Holds K (post key value) :=
  Routine.meets_modify fun _ _ _ => ⟨K.gather rfl, trivial⟩

theorem inside_post (key value : String) :
    Inside K members round (post key value) :=
  Routine.meets_modify fun _ _ h => ⟨K.gather rfl, h.posted _⟩

theorem inside_postReplies (replies : List (String × Message)) :
    Inside K members round (postReplies round replies) := by
  induction replies with
  | nil => exact inside_pure
  | cons reply replies ih => exact (inside_post _ _).bind fun _ => ih

theorem onward_rounds (hmembers : ∀ m ∈ members, m.Within K)
    (converged : Option (List Message → Bool)) (left round : Nat) (content : String)
    (last : List Message) :
    Onward K members round (rounds converged members deadline left round content last) := by
  induction left generalizing round content last with
  | zero => exact onward_pure
  | succ left ih =>
    refine meets_round ?_ onward_pure
    have hget : Inside K members round (Routine.get : Routine Scene Scene) :=
      fun c s h => ⟨K.refl c s, h⟩
    refine hget.bind fun ⟨_, state⟩ => ?_
    have hplan : ∀ d ∈ members.map (request content round state.blackboard), d.For members :=
      for_map (fun _ h => h) (fun _ => rfl) fun _ => rfl
    refine (inside_dispatchRound hmembers hplan).bind fun calls => ?_
    refine (inside_postReplies _).bind fun _ => meets_endRound.bind fun _ => ?_
    -- the three ways to go on after a round
    refine Routine.Meets.ite (fun _ => onward_pure) fun _ => ?_
    refine Routine.Meets.ite (fun _ => onward_pure) fun _ => ?_
    exact ih _ _ _

end Swarm

namespace Pipeline

theorem inside_tryStep (hmembers : ∀ m ∈ members, m.Within K) {m : Member} (hm : m ∈ members)
    (sender content : String) (step left attempt : Nat) :
    Inside K members round (tryStep deadline sender content step m left attempt) := by
  induction left generalizing attempt with
  | zero => exact inside_pure
  | succ left ih =>
    let d : Dispatch := ⟨m, request sender content step attempt m⟩
    have hd : d.For members := ⟨hm, rfl⟩
    refine (inside_call hmembers hd).bind fun outcome => ?_
    cases outcome with
    | response reply => exact inside_pure
    | failed record => exact ih (attempt + 1)
    | skipped => exact inside_pure

theorem onward_steps (hmembers : ∀ m ∈ members, m.Within K) (o : PipelineOptions)
    {chain : List Member} (hchain : ∀ m ∈ chain, m ∈ members) (step : Nat)
    (sender content : String) :
    Onward K members step (steps o deadline chain step sender content) := by
  induction chain generalizing step sender content with
  | nil => exact onward_pure
  | cons m rest ih =>
    have hrest := ih fun x hx => hchain x (List.mem_cons_of_mem m hx)
    refine meets_round ?_ onward_pure
    refine (inside_tryStep hmembers (hchain m List.mem_cons_self) _ _ _ _ _).bind fun outcome => ?_
    refine meets_endRound.bind fun _ => ?_
    cases outcome with
    | produced reply => exact hrest _ _ _
    | failed => exact Routine.Meets.ite (fun _ => hrest _ _ _) fun _ => onward_pure
    | stopped => exact onward_pure

end Pipeline

namespace MapReduce

theorem plan_for (members : List Member) (pieces : List String) :
    ∀ d ∈ plan members pieces, d.For members := by
  intro d hd
  obtain ⟨p, _, hp⟩ := List.mem_filterMap.mp hd
  obtain ⟨m, hm, rfl⟩ := Option.map_eq_some_iff.mp hp
  exact ⟨List.mem_of_getElem? hm, rfl⟩

theorem onward_mapRound (hmembers : ∀ m ∈ members, m.Within K) {job : Job}
    (hlimit : job.concurrency ≠ some 0) (input : String) :
    Onward K members 0 (mapRound job members deadline input) := by
  have hplan := plan_for members (job.split input)
  have hpieces : Inside K members 0
      (mapPieces deadline job.concurrency (plan members (job.split input))) := by
    unfold mapPieces
    cases hc : job.concurrency with
    | none => exact (inside_dispatchRound hmembers hplan).bind fun _ => inside_pure
    | some limit =>
      have hpos : 0 < limit := Nat.pos_of_ne_zero fun h => hlimit (by rw [hc, h])
      exact (inside_dispatchBounded hpos hmembers hplan).bind fun _ => inside_pure
  refine meets_round ?_ onward_pure
  exact hpieces.bind fun _ => meets_endRound.bind fun _ => onward_pure

end MapReduce

namespace Debate

theorem onward_rounds (hmembers : ∀ m ∈ members, m.Within K) {arguing : List Member}
    (harguing : ∀ m ∈ arguing, m ∈ members) (left round : Nat) (context : String)
    (last : List (String × Message)) :
    Onward K members round (rounds arguing deadline left round context last) := by
  induction left generalizing round context last with
  | zero => exact onward_pure
  | succ left ih =>
    have hplan : ∀ d ∈ arguing.map (request context round), d.For members :=
      for_map harguing (fun _ => rfl) fun _ => rfl
    refine meets_round ?_ onward_pure
    refine (inside_dispatchRound hmembers hplan).bind fun calls => ?_
    exact meets_endRound.bind fun _ => ih _ _ _

end Debate

/-! ## The whole run -/

theorem VerdictLog.callLog {s : Strategy} {calls : List Call} {log : List Occurrence}
    (h : VerdictLog s calls log) : CallLog [] calls log := by
  cases h with
  | none => exact .start
  | sought _ h => exact h.callLog

/-- The books that a strategy leaves, made of those of its rounds, of the verdict and of what it
adds to the transcript. -/
theorem nonempty_ledger {strategy : Strategy} {calls calls' : List Call}
    {log log' : List Occurrence} {coda : List Message} {r r' : RunState}
    (hrounds : RoundLog round calls log) (hverdict : VerdictLog strategy calls' log')
    (hcoda : strategy.Coda coda) (hfor : ∀ call ∈ calls ++ calls', call.dispatch.For members)
    (hgain : (RunState.initial (members.map (·.id))).Gains (log ++ log') (calls ++ calls') r)
    (hsame : r' = { r with messages := r'.messages })
    (hmessages : r'.messages.toList = r.messages.toList ++ coda) :
    Nonempty (Ledger strategy members r') := by
  have hcount : r'.rounds = round := by
    rw [hsame]
    refine hgain.rounds.trans ?_
    rw [List.countP_append, hrounds.countP_beginsRound, hverdict.callLog.countP_beginsRound]
    exact Nat.zero_add round
  refine ⟨⟨calls, log, calls', log', coda, hcount ▸ hrounds, hverdict, hcoda, hfor, ?_, ?_, ?_⟩⟩
  · rw [hsame]; exact hgain.occurrences
  · rw [hmessages, hgain.messages]; rfl
  · rw [hsame]; exact hgain.results

theorem nonempty_ledger_of_tells {strategy : Strategy} {s : Scene} (h : Tells members s.2)
    (hcoda : strategy.Coda []) : Nonempty (Ledger strategy members s.2) := by
  obtain ⟨rounds, calls, log, hlog, hfor, hgain⟩ := h
  refine nonempty_ledger hlog .none hcoda ?_ ?_ rfl (List.append_nil _).symm
  · rwa [List.append_nil]
  · rwa [List.append_nil, List.append_nil]

/-- A routine that comes after some round and leaves a ledger. -/
abbrev Leaves {α : Type} (K : Regime deadline) (strategy : Strategy) (members : List Member)
    (routine : Routine Scene α) : Prop :=
  routine.Meets Untouched K.toGuarantee (fun s => Tells members s.2)
    fun _ s => Nonempty (Ledger strategy members s.2)

theorem leaves_pure {α : Type} (strategy : Strategy) (hcoda : strategy.Coda []) (a : α) :
    Leaves K strategy members (pure a : Routine Scene α) :=
  Routine.meets_pure fun _ h => nonempty_ledger_of_tells h hcoda

theorem MapReduce.meets_run (hmembers : ∀ m ∈ members, m.Within K) {job : Job}
    (hlimit : job.concurrency ≠ some 0) (input : String) :
    (run job members deadline input).Meets Untouched K.toGuarantee
      (fun s => Told members 0 s.2)
      fun _ s => Nonempty (Ledger (.mapReduce job) members s.2) := by
  refine (onward_mapRound hmembers hlimit input).bind fun replies => ?_
  have hrecord : Leaves K (.mapReduce job) members
      (recordMessage ((job.reduce replies).withMetadata "phase" "reduce")) := by
    refine Routine.meets_modify ?_
    rintro c ⟨m, r⟩ ⟨rounds, calls, log, hlog, hfor, hgain⟩
    refine ⟨K.gather rfl, ?_⟩
    refine nonempty_ledger (r := r) hlog .none ⟨replies, rfl⟩ ?_ ?_ rfl Array.toList_push
    · rwa [List.append_nil]
    · rwa [List.append_nil, List.append_nil]
  exact hrecord.bind fun _ => Routine.meets_pure fun _ h => h

theorem Debate.leaves_judgeVerdict (hmembers : ∀ m ∈ members, m.Within K) {o : DebateOptions}
    (hvoting : o.voting = .judge) (context : String) :
    Leaves K (.debate o) members (judgeVerdict (judge? o members) deadline context) := by
  cases hjudge : judge? o members with
  | none => exact leaves_pure (.debate o) rfl context
  | some judge =>
    let d : Dispatch := ⟨judge, verdictRequest context judge⟩
    have hd : d.For members := ⟨List.mem_of_find?_eq_some hjudge, rfl⟩
    have hchosen : Strategy.judge? (.debate o) = some judge.id := by
      simpa [Strategy.judge?, hvoting] using List.find?_some hjudge
    have hcall : Leaves K (.debate o) members (call deadline d.member d.message) := by
      refine meets_from fun r₀ hr₀ => ?_
      refine (meets_call (hmembers _ hd.1) r₀).consequence (fun _ h => h) ?_
      rintro _ s ⟨calls', log', hsingle, hgain'⟩
      obtain ⟨rounds, calls, log, hlog, hfor, hgain⟩ := hr₀
      refine nonempty_ledger hlog (.sought hchosen hsingle) rfl ?_ (hgain.trans hgain') rfl
        (List.append_nil _).symm
      intro call hcall
      rcases List.mem_append.mp hcall with hcall | hcall
      · exact hfor call hcall
      · rw [hsingle.dispatch_eq call hcall]; exact hd
    refine hcall.bind fun outcome => ?_
    cases outcome <;> exact Routine.meets_pure fun _ h => h

theorem Debate.meets_run (hmembers : ∀ m ∈ members, m.Within K) (o : DebateOptions)
    (input : String) :
    (run o members deadline input).Meets Untouched K.toGuarantee (fun s => Told members 0 s.2)
      fun _ s => Nonempty (Ledger (.debate o) members s.2) := by
  have harguing : ∀ m ∈ debaters o members, m ∈ members := fun m hm => (List.mem_filter.mp hm).1
  refine (onward_rounds hmembers harguing _ 0 input []).bind fun ⟨context, last⟩ => ?_
  dsimp only
  cases hvoting : o.voting with
  | judge => exact leaves_judgeVerdict hmembers hvoting context
  | majority => exact leaves_pure (.debate o) rfl _
  | unanimous => exact leaves_pure (.debate o) rfl _

/-- Whether the parameters of a strategy let it make progress: pieces are worked on one at a time at
least. -/
def Strategy.Works : Strategy → Prop
  | mapReduce job => job.concurrency ≠ some 0
  | _ => True

/-- Every strategy leaves a ledger, under every regime that the members keep to. -/
theorem Strategy.meets_run (hmembers : ∀ m ∈ members, m.Within K) {strategy : Strategy}
    (hworks : strategy.Works) (input : String) :
    (strategy.run members deadline input).Meets Untouched K.toGuarantee
      (fun s => s.2 = .initial (members.map (·.id)))
      fun _ s => Nonempty (Ledger strategy members s.2) := by
  have hstart : ∀ s : Scene, s.2 = .initial (members.map (·.id)) → Told members 0 s.2 := by
    rintro s hs
    rw [hs]
    exact told_initial members
  cases strategy with
  | supervisor o maxRounds =>
    refine Routine.Meets.consequence ?_ hstart fun _ _ h => h
    exact (Supervisor.onward_rounds hmembers o.delegation input maxRounds 0 []).bind fun _ =>
      leaves_pure (.supervisor o maxRounds) rfl _
  | swarm o maxRounds =>
    refine Routine.Meets.consequence ?_ hstart fun _ _ h => h
    have hpost : (Swarm.post "input" input).Meets Untouched K.toGuarantee
        (fun s => Told members 0 s.2) fun _ s => Told members 0 s.2 :=
      Routine.meets_modify fun _ _ h => ⟨K.gather rfl, h.posted _⟩
    refine hpost.bind fun _ => ?_
    exact (Swarm.onward_rounds hmembers o.converged maxRounds 0 input []).bind fun _ =>
      Routine.meets_pure fun _ h => nonempty_ledger_of_tells h rfl
  | pipeline o =>
    exact (Pipeline.onward_steps hmembers o (fun _ h => h) 0 orchestratorName input).consequence
      hstart fun _ _ h => nonempty_ledger_of_tells h rfl
  | mapReduce job =>
    exact (MapReduce.meets_run hmembers hworks input).consequence hstart fun _ _ h => h
  | debate o => exact (Debate.meets_run hmembers o input).consequence hstart fun _ _ h => h

end Ensemble
