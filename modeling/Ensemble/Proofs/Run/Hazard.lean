import Ensemble.Proofs.Consensus.Plurality
import Ensemble.Proofs.Routine.Straight
import Ensemble.Proofs.Run.Gate

/-!
# What could break off a run

A pattern takes remainders by the number of its participants, takes participants and replies from
their places, and works with pools of a given size. `Orchestration.checkedDrive` is a run in which
each of these operations is partial: it takes its participants, its winners and its pools from
look-ups that come to a `Hazard` where there is nothing to be had. An orchestration that has passed
the gate never comes to one (`Orchestration.checkedDrive_eq`): with partial look-ups or without, its
runs are the same.
-/

namespace Ensemble

/-- What would break off a run, or let it wait for ever. -/
inductive Hazard where
  /-- A remainder by zero. -/
  | zeroDivisor
  /-- A place beyond the end of a list. -/
  | outOfRange
  /-- A pool that has room for nobody. -/
  | noSlots
deriving DecidableEq

/-- A routine that may stop at a hazard. -/
abbrev Checked (α : Type) := ExceptT Hazard (Routine Scene) α

namespace Hazard

/-! ## Partial look-ups -/

/-- A remainder, if the divisor is not zero. -/
def remainder (a b : Nat) : Except Hazard Nat :=
  if b = 0 then .error .zeroDivisor else .ok (a % b)

/-- What stands at a place of a list, if the place is not beyond the end. -/
def lookUp {α : Type} (l : List α) (i : Nat) : Except Hazard α :=
  match l[i]? with
  | some a => .ok a
  | none => .error .outOfRange

/-- The participant whose turn it is. -/
def inTurn (members : List Member) (turn : Nat) : Except Hazard Member := do
  let place ← remainder turn members.length
  lookUp members place

/-- The item that a vote elects, if there is one to elect. -/
def elected {α κ : Type} [DecidableEq κ] (key : α → κ) (l : List α) : Except Hazard (Option α) :=
  match plurality (l.map key) with
  | none => .ok none
  | some (position, _) => some <$> lookUp l position

/-- The size of a pool, if it has room for anybody. -/
def room : Option Nat → Except Hazard (Option Nat)
  | some limit => if limit = 0 then .error .noSlots else .ok (some limit)
  | none => .ok none

theorem lookUp_eq {α : Type} {l : List α} {i : Nat} {a : α} (h : l[i]? = some a) :
    lookUp l i = .ok a := by
  rw [lookUp, h]

/-- Where there are participants, it is always somebody's turn. -/
theorem inTurn_eq {members : List Member} (h : members ≠ []) (turn : Nat) :
    ∃ m, members[turn % members.length]? = some m ∧ inTurn members turn = .ok m := by
  have hpos : 0 < members.length := List.length_pos_iff.mpr h
  have hm := List.getElem?_eq_getElem (Nat.mod_lt turn hpos)
  refine ⟨_, hm, ?_⟩
  rw [inTurn, remainder, if_neg (Nat.ne_of_gt hpos)]
  exact lookUp_eq hm

/-- Whoever is elected stands in the list. -/
theorem elected_eq {α κ : Type} [DecidableEq κ] (key : α → κ) (l : List α) :
    elected key l = .ok ((plurality (l.map key)).bind fun w => l[w.1]?) := by
  rw [elected]
  cases hplurality : plurality (l.map key) with
  | none => rfl
  | some w =>
    obtain ⟨k, hforemost, -⟩ := plurality_eq_some_iff.mp hplurality
    obtain ⟨winner, hwinner, -⟩ : ∃ winner, l[w.1]? = some winner ∧ key winner = k := by
      simpa using hforemost.stands
    simp only [lookUp_eq hwinner, Option.bind_some, hwinner]
    rfl

theorem room_eq {limit : Option Nat} (h : limit ≠ some 0) : room limit = .ok limit := by
  cases limit with
  | none => rfl
  | some n => exact if_neg fun hn => h (congrArg some hn)

/-- A look-up that succeeds leaves no trace. -/
theorem lift_ok {α : Type} (a : α) :
    (liftM (Except.ok a : Except Hazard α) : Checked α) = pure a :=
  rfl

end Hazard

/-! ## Checked runs -/

namespace Supervisor

/-- The participants asked in a round, one of them in turn under `roundRobin`. -/
def checkedTargets (delegation : Delegation) (members : List Member) (round : Nat) :
    Except Hazard (List Member) :=
  match delegation, round with
  | .roundRobin, r + 1 => ([·]) <$> Hazard.inTurn members (r + 1)
  | _, _ => .ok members

/-- The output that is made of all replies, that of the one elected under `vote`. -/
def checkedAggregate (how : Aggregation) (replies : List (String × Message)) :
    Except Hazard String :=
  match how with
  | .vote => (·.elim "" (·.2.content)) <$> Hazard.elected (·.2.content) replies
  | how => .ok (aggregate how replies)

/-- The rounds of a supervisor, checked. -/
def checkedRounds (delegation : Delegation) (members : List Member) (deadline : Deadline)
    (input : String) : (left round : Nat) → (replies : List (String × Message)) →
    Checked (List (String × Message))
  | 0, _, replies => pure replies
  | left + 1, round, replies => do
    if ← Run.beginRound deadline round then
      let targets ← checkedTargets delegation members round
      let calls ← Run.dispatchRound deadline (targets.map (request input round))
      Run.endRound round
      checkedRounds delegation members deadline input left (round + 1)
        (replies ++ calls.filterMap (·.response?))
    else
      return replies

/-- A run of a supervisor, checked. -/
def checkedRun (options : SupervisorOptions) (maxRounds : Nat) (members : List Member)
    (deadline : Deadline) (input : String) : Checked String := do
  let replies ← checkedRounds options.delegation members deadline input maxRounds 0 []
  checkedAggregate options.aggregation replies

end Supervisor

namespace MapReduce

/-- The planned calls for all pieces, each for the participant whose turn it is. -/
def checkedPlan (members : List Member) (pieces : List String) : Except Hazard (List Dispatch) :=
  pieces.zipIdx.mapM fun p => request p.1 p.2 <$> Hazard.inTurn members p.2

/-- The one round of a map-reduce run, checked. -/
def checkedRound (job : Job) (members : List Member) (deadline : Deadline) (input : String) :
    Checked (List Message) := do
  if ← Run.beginRound deadline 0 then
    let calls ← checkedPlan members (job.split input)
    let limit ← Hazard.room job.concurrency
    let replies ← mapPieces deadline limit calls
    Run.endRound 0
    return replies
  else
    return []

/-- A map-reduce run, checked. -/
def checkedRun (job : Job) (members : List Member) (deadline : Deadline) (input : String) :
    Checked String := do
  let replies ← checkedRound job members deadline input
  let reduced := (job.reduce replies).withMetadata "phase" "reduce"
  Run.recordMessage reduced
  return reduced.content

end MapReduce

namespace Debate

/-- The reply of the majority, taken from the candidate that is elected. -/
def checkedMajority (replies : List (String × Message)) : Except Hazard (Option String) :=
  let candidates : List Candidate := replies.map fun r => ⟨r.1, r.2.content⟩
  (·.map (·.output)) <$> Hazard.elected (fun c => Text.trim c.output) candidates

/-- A run of a debate, checked. -/
def checkedRun (options : DebateOptions) (members : List Member) (deadline : Deadline)
    (input : String) : Checked String := do
  let arguing := debaters options members
  let (context, last) ← rounds arguing deadline options.rounds.toNat 0 input []
  match options.voting with
  | .judge => judgeVerdict (judge? options members) deadline context
  | .majority =>
    let majority ← checkedMajority last
    return majority.getD context
  | .unanimous => return (unanimous? last arguing.length).getD context

end Debate

/-- A run of the strategy, checked. A swarm and a pipeline look nothing up: they ask their
participants one by one. -/
def Strategy.checkedRun (s : Strategy) (members : List Member) (deadline : Deadline)
    (input : String) : Checked String :=
  match s with
  | supervisor o maxRounds => Supervisor.checkedRun o maxRounds members deadline input
  | swarm o maxRounds => Swarm.run o maxRounds members deadline input
  | pipeline o => Pipeline.run o members deadline input
  | mapReduce job => MapReduce.checkedRun job members deadline input
  | debate o => Debate.checkedRun o members deadline input

/-- A run, checked. -/
def Orchestration.checkedDrive (o : Orchestration) (stamp : RunStamp) (input : String) :
    Checked RunResult := do
  let started := (← (Routine.clock : Routine Scene Clock)).now
  let deadline := Deadline.after started o.timeout
  let output ← o.strategy.checkedRun o.members deadline input
  o.conclude stamp deadline started output

/-! ## Runs without hazards -/

namespace Supervisor

variable {members : List Member}

theorem checkedTargets_eq (hmembers : members ≠ []) (delegation : Delegation) (round : Nat) :
    checkedTargets delegation members round = .ok (targets delegation members round) := by
  cases delegation with
  | broadcast => rfl
  | roundRobin =>
    cases round with
    | zero => rfl
    | succ r =>
      obtain ⟨m, hm, hturn⟩ := Hazard.inTurn_eq hmembers (r + 1)
      rw [checkedTargets, hturn, targets, hm]
      rfl

theorem checkedAggregate_eq (how : Aggregation) (replies : List (String × Message)) :
    checkedAggregate how replies = .ok (aggregate how replies) := by
  cases how with
  | vote =>
    rw [checkedAggregate, Hazard.elected_eq, aggregate]
    cases plurality (replies.map (·.2.content)) <;> rfl
  | concat => rfl
  | summarize => rfl

theorem checkedRounds_eq (hmembers : members ≠ []) (delegation : Delegation) (deadline : Deadline)
    (input : String) (left round : Nat) (replies : List (String × Message)) :
    checkedRounds delegation members deadline input left round replies =
      liftM (rounds delegation members deadline input left round replies) := by
  induction left generalizing round replies with
  | zero => rfl
  | succ left ih =>
    rw [checkedRounds, rounds, liftM_bind]
    refine bind_congr fun begun => ?_
    cases begun with
    | false => rfl
    | true => simp [checkedTargets_eq hmembers, Hazard.lift_ok, plan, ih]

theorem checkedRun_eq (hmembers : members ≠ []) (options : SupervisorOptions) (maxRounds : Nat)
    (deadline : Deadline) (input : String) :
    checkedRun options maxRounds members deadline input =
      liftM (run options maxRounds members deadline input) := by
  simp [checkedRun, run, checkedRounds_eq hmembers, checkedAggregate_eq, Hazard.lift_ok]

end Supervisor

namespace MapReduce

variable {members : List Member}

/-- Every piece has somebody to take it. -/
theorem checkedPlan_eq (hmembers : members ≠ []) (pieces : List String) :
    checkedPlan members pieces = .ok (plan members pieces) := by
  unfold checkedPlan plan
  induction pieces.zipIdx with
  | nil => rfl
  | cons p rest ih =>
    obtain ⟨m, hm, hturn⟩ := Hazard.inTurn_eq hmembers p.2
    rw [List.mapM_cons, ih, hturn, List.filterMap_cons, request?_eq p.1 hm]
    rfl

theorem checkedRun_eq (hmembers : members ≠ []) {job : Job} (hjob : job.concurrency ≠ some 0)
    (deadline : Deadline) (input : String) :
    checkedRun job members deadline input = liftM (run job members deadline input) := by
  have hround : checkedRound job members deadline input =
      liftM (mapRound job members deadline input) := by
    rw [checkedRound, mapRound, liftM_bind]
    refine bind_congr fun begun => ?_
    cases begun with
    | false => rfl
    | true => simp [checkedPlan_eq hmembers, Hazard.room_eq hjob, Hazard.lift_ok]
  simp [checkedRun, run, hround]

end MapReduce

namespace Debate

theorem checkedMajority_eq (replies : List (String × Message)) :
    checkedMajority replies = .ok (majority? replies) := by
  rw [checkedMajority, Hazard.elected_eq, majority?, Consensus.evaluate]
  generalize (replies.map fun r => (⟨r.1, r.2.content⟩ : Candidate)) = candidates
  cases plurality (candidates.map fun c => Text.trim c.output) with
  | none => rfl
  | some w =>
    obtain ⟨position, votes⟩ := w
    simp only [Option.bind_some]
    cases candidates[position]? <;> rfl

theorem checkedRun_eq (options : DebateOptions) (members : List Member) (deadline : Deadline)
    (input : String) :
    checkedRun options members deadline input = liftM (run options members deadline input) := by
  rw [checkedRun, run, liftM_bind]
  refine bind_congr fun ⟨context, last⟩ => ?_
  cases options.voting with
  | judge => rfl
  | unanimous => rfl
  | majority => simp [checkedMajority_eq, Hazard.lift_ok]

end Debate

namespace Orchestration

/-- **Behind the gate there are no hazards**: a run with partial look-ups is a run. -/
theorem checkedDrive_eq {members : List Member} {options : Options} {o : Orchestration}
    (h : build members options = .ok o) (stamp : RunStamp) (input : String) :
    o.checkedDrive stamp input = liftM (o.drive stamp input) := by
  obtain ⟨haccepted, hmembers⟩ := accepted_of_build h
  have hne : o.members ≠ [] := hmembers ▸ nonempty_of_build h
  have hrun : ∀ deadline, o.strategy.checkedRun o.members deadline input =
      liftM (o.strategy.run o.members deadline input) := by
    intro deadline
    have hworks := haccepted.works
    cases hstrategy : o.strategy with
    | supervisor p maxRounds => exact Supervisor.checkedRun_eq hne p maxRounds deadline input
    | swarm p maxRounds => rfl
    | pipeline p => rfl
    | mapReduce job =>
      rw [hstrategy] at hworks
      exact MapReduce.checkedRun_eq hne hworks deadline input
    | debate p => exact Debate.checkedRun_eq p o.members deadline input
  simp [checkedDrive, drive, hrun]

/-- A checked run that comes to no hazard ends with the result of the run. -/
theorem runFrom_checkedDrive {o : Orchestration} {stamp : RunStamp} {input : String}
    (h : o.checkedDrive stamp input = liftM (o.drive stamp input)) (w : World) :
    (Routine.runFrom (o.checkedDrive stamp input).run (w.clock, (w.memory, .initial o.ids))).1 =
      .ok (o.execute stamp input w).2 := by
  have hrun : (o.checkedDrive stamp input).run = o.drive stamp input >>= fun r => pure (.ok r) := by
    rw [h]
    rfl
  rw [hrun, Routine.runFrom_bind]
  rfl

/-- **The gate.** An orchestration is built exactly of options that fit the participants, and
otherwise the first fault is reported; of the participants nothing but the ids is looked at. And
what has been built runs: whatever the participants do and whenever they do it, no run comes to a
remainder by zero, to a place beyond the end of a list or to a pool without room, and every run
ends with a result. -/
theorem gate_is_exact_and_sufficient (members : List Member) (options : Options) :
    ((∃ o, build members options = .ok o) ↔ options.Fits (members.map (·.id))) ∧
    (∀ e, build members options = .error e ↔
      ∃ f, options.Finds (members.map (·.id)) f ∧ e = f.toError) ∧
    (∀ members' : List Member, members'.map (·.id) = members.map (·.id) →
      build members' options =
        (build members options).map fun o => { o with members := members' }) ∧
    ∀ o, build members options = .ok o → ∀ stamp input,
      o.checkedDrive stamp input = liftM (o.drive stamp input) ∧
      ∀ w : World, (Routine.runFrom (o.checkedDrive stamp input).run
        (w.clock, (w.memory, .initial o.ids))).1 = .ok (o.execute stamp input w).2 := by
  refine ⟨build_eq_ok_iff, fun e => build_eq_error_iff, fun _ => build_ids, ?_⟩
  intro o ho stamp input
  have hdrive := checkedDrive_eq ho stamp input
  exact ⟨hdrive, runFrom_checkedDrive hdrive⟩

/-- What the gate keeps out does come to a hazard. -/
example :
    let job (limit : Option Nat) : MapReduce.Job :=
      { split := fun input => [input], reduce := fun _ => default, concurrency := limit }
    let member : Member := { id := "a", handle := fun m => pure (.ok m) }
    let outcome (members : List Member) (limit : Option Nat) : Except Hazard RunResult :=
      let o : Orchestration := ⟨members, .mapReduce (job limit), none⟩
      (Routine.runFrom (o.checkedDrive default "go").run (.start, (.fresh, .initial o.ids))).1
    outcome [] none = .error .zeroDivisor ∧ outcome [member] (some 0) = .error .noSlots :=
  ⟨rfl, rfl⟩

end Orchestration

end Ensemble
