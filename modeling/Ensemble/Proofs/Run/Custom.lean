import Ensemble.Proofs.Run.Drive

/-!
# What every run does by itself

Some facts about runs are no matter of time passing or of what participants may do to the books: a
run writes into its journal and gathers, and it asks participants in messages of its own making.
`Run.Custom` is a guarantee that survives these steps, and `Strategy.meets_custom` says that every
run keeps to it if its members do. In contrast to a `Regime` it need not survive the passing of
time, and it may rely on what a call that begins is asked.
-/

namespace Ensemble

namespace Message

@[simp] theorem isError_plain (sender content : String) : (plain sender content).isError = false :=
  rfl

@[simp] theorem isError_addressedTo (m : Message) (recipient : String) :
    (m.addressedTo recipient).isError = m.isError := rfl

/-- Only the tag of failures makes a message the record of one. -/
theorem isError_withMetadata {m : Message} {key : String} {value : Json} (hkey : key ≠ errorKey) :
    (m.withMetadata key value).isError = m.isError := by
  simp only [isError, meta?_withMetadata, hkey.symm, if_false]

end Message

/-- A planned call of one of the members, in a message that is not tagged as a failure. -/
structure Dispatch.Plain (members : List Member) (d : Dispatch) : Prop where
  member : d.member ∈ members
  message : d.message.isError = false

namespace Run

/-- A guarantee that a run keeps in what it does by itself: it writes into the journal that calls
have begun in messages that are not tagged as failures, or that anything else has happened, and it
gathers. -/
structure Custom (G : Guarantee Scene) : Prop where
  note : ∀ {o c s}, (∀ id m, o = .callBegun id m → m.isError = false) → G.step c s c (noted o c s)
  gather : ∀ {c m r r'}, r'.journal = r.journal → r'.blackboard = r.blackboard →
    G.step c (m, r) c (m, r')

/-- A guarantee that a run keeps when it writes on the blackboard, as a swarm does. -/
def Posts (G : Guarantee Scene) : Prop :=
  ∀ (c : Clock) (m : Memory) (r : RunState) (board : Metadata),
    G.step c (m, r) c (m, { r with blackboard := board })

/-- A routine that keeps to a guarantee whatever goes on while it waits. -/
abbrev Does {α : Type} (G : Guarantee Scene) (r : Routine Scene α) : Prop :=
  r.Meets Anything G (fun _ => True) fun _ _ => True

variable {G : Guarantee Scene} {deadline : Deadline} {members : List Member} {α β : Type}

theorem does_pure (a : α) : Does G (pure a) := Routine.meets_pure fun _ h => h

theorem does_get : Does G (Routine.get : Routine Scene Scene) := fun c s _ => ⟨G.refl c s, trivial⟩

theorem does_stopping : Does G (stopping deadline) := fun c s _ => ⟨G.refl c s, trivial⟩

theorem does_note (h : Custom G) {o : Occurrence}
    (ho : ∀ id m, o = .callBegun id m → m.isError = false) : Does G (note o) :=
  fun _ _ _ => ⟨h.note ho, trivial⟩

theorem does_gather (h : Custom G) {f : RunState → RunState}
    (hjournal : ∀ r, (f r).journal = r.journal)
    (hboard : ∀ r, (f r).blackboard = r.blackboard) :
    Does G (Routine.modify fun s => (s.1, f s.2)) :=
  Routine.meets_modify fun _ s _ => ⟨h.gather (hjournal s.2) (hboard s.2), trivial⟩

theorem does_post (h : Posts G) (key value : String) : Does G (Swarm.post key value) :=
  Routine.meets_modify fun c s _ => ⟨h c s.1 s.2 _, trivial⟩

/-- Whatever a member does, it leaves the books alone. -/
theorem does_handle (h : ∀ c s c' m, G.step c s c' (m, s.2)) (m : Member) (message : Message) :
    Does G (onMemory (m.handle message)) := by
  intro c s _
  have hanything : (m.handle message c s.1).Keeps Anything (fun _ _ _ _ => True)
      (fun _ _ _ _ _ => True) c s.1 :=
    Progress.keeps_trivial (fun _ _ _ _ => trivial) (fun _ _ _ _ _ => trivial) c s.1 _
  refine Progress.Keeps.zoom hanything ?_ ?_
  · exact fun c s c' m _ => h c s c' m
  · exact fun c s c' m _ _ => ⟨h c s c' m, trivial⟩

theorem does_beginRound (h : Custom G) (round : Nat) :
    Does G (beginRound deadline round) := by
  refine does_stopping.bind fun stop => Routine.Meets.ite (fun _ => ?_) fun _ => ?_
  · exact (does_note h fun _ _ ho => by cases ho).bind fun _ => does_pure false
  · refine (does_gather h (f := fun r => { r with rounds := r.rounds + 1 }) (fun _ => rfl)
      fun _ => rfl).bind fun _ => ?_
    exact (does_note h fun _ _ ho => by cases ho).bind fun _ => does_pure true

theorem does_endRound (h : Custom G) (round : Nat) : Does G (endRound round) :=
  does_note h fun _ _ ho => by cases ho

/-! ## Calls -/

theorem custom_settle (h : Custom G) (a : Settled) (c : Clock) (s : Scene) :
    G.step c s c (settle a s) := by
  unfold settle record
  split
  · exact G.refl c s
  · exact h.gather rfl rfl

variable (hmembers : ∀ m ∈ members, ∀ message, Does G (onMemory (m.handle message)))

include hmembers

theorem does_invoke (h : Custom G) {d : Dispatch} (hd : d.Plain members) :
    Does G (invoke deadline d.member d.message) := by
  refine does_stopping.bind fun stop => Routine.Meets.ite (fun _ => ?_) fun _ => ?_
  · exact (does_note h fun _ _ ho => by cases ho).bind fun _ => does_pure _
  · have hbegun : Does G (note (.callBegun d.member.id d.message)) :=
      does_note h fun id m ho => by
        cases ho
        exact hd.message
    refine hbegun.bind fun _ => (hmembers _ hd.member d.message).bind fun answer => ?_
    cases answer with
    | ok m =>
      refine (does_note h fun _ _ ho => by cases ho).bind fun _ => (does_pure _).bind fun _ => ?_
      exact (does_note h fun _ _ ho => by cases ho).bind fun _ => does_pure _
    | error detail =>
      refine (does_note h fun _ _ ho => by cases ho).bind fun _ => (does_pure _).bind fun _ => ?_
      exact (does_note h fun _ _ ho => by cases ho).bind fun _ => does_pure _

theorem does_perform (h : Custom G) {d : Dispatch} (hd : d.Plain members) (n : Nat) :
    Does G (perform deadline d n) :=
  (does_invoke hmembers h hd).bind fun _ => does_pure _

theorem does_call (h : Custom G) {d : Dispatch} (hd : d.Plain members) :
    Does G (call deadline d.member d.message) := by
  refine (does_invoke hmembers h hd).bind fun outcome => ?_
  have hrecord : Does G (Routine.modify (record d.member.id d.message outcome)) :=
    Routine.meets_modify fun c s _ => ⟨custom_settle h ⟨0, d, outcome⟩ c s, trivial⟩
  exact hrecord.bind fun _ => does_pure _

/-- All routines of a plan keep to the guarantee. -/
theorem does_tasks (h : Custom G) {plan : List Dispatch} (hplan : ∀ d ∈ plan, d.Plain members) :
    ∀ r ∈ tasks deadline plan, Does G r := by
  intro r hr
  obtain ⟨⟨d, n⟩, hd, rfl⟩ := List.mem_map.mp hr
  exact does_perform hmembers h (hplan d (List.fst_mem_of_mem_zipIdx hd)) n

theorem does_dispatchRound (h : Custom G) {plan : List Dispatch}
    (hplan : ∀ d ∈ plan, d.Plain members) : Does G (dispatchRound deadline plan) := by
  have htogether : Does G (Routine.together settle (tasks deadline plan)) := by
    intro c s _
    refine Routine.Pool.run_keeps (custom_settle h) (fun hqueue => absurd rfl hqueue) ?_ [] c s
    simpa [Routine.Pool.group] using does_tasks hmembers h hplan
  exact htogether.bind fun _ => does_pure _

theorem does_dispatchBounded (h : Custom G) {limit : Nat} (hlimit : 0 < limit)
    {plan : List Dispatch} (hplan : ∀ d ∈ plan, d.Plain members) :
    Does G (dispatchBounded deadline limit plan) := by
  intro c s _
  refine Routine.Pool.run_keeps (custom_settle h) (Routine.Pool.fed_take hlimit _) ?_ [] c s
  simpa [Routine.Pool.group] using does_tasks hmembers h hplan

end Run

open Run

variable {G : Guarantee Scene} {deadline : Deadline} {members : List Member}

/-! ## Patterns -/

section

variable (hmembers : ∀ m ∈ members, ∀ message, Does G (onMemory (m.handle message)))

include hmembers

theorem Supervisor.does_rounds (h : Custom G) (delegation : Delegation) (input : String)
    (left round : Nat) (replies : List (String × Message)) :
    Does G (rounds delegation members deadline input left round replies) := by
  have hplan : ∀ round, ∀ d ∈ plan delegation members input round, d.Plain members := by
    intro round d hd
    have hmember := (plan_for delegation members input round d hd).1
    obtain ⟨m, -, rfl⟩ := List.mem_map.mp hd
    exact ⟨hmember, Message.isError_withMetadata (by decide)⟩
  induction left generalizing round replies with
  | zero => exact does_pure _
  | succ left ih =>
    refine (does_beginRound h round).bind fun begun =>
      Routine.Meets.ite (fun _ => ?_) fun _ => does_pure _
    refine (does_dispatchRound hmembers h (hplan round)).bind fun calls => ?_
    exact (does_endRound h round).bind fun _ => ih _ _

theorem Swarm.does_rounds (h : Custom G) (hposts : Posts G)
    (converged : Option (List Message → Bool)) (left round : Nat) (content : String)
    (last : List Message) :
    Does G (rounds converged members deadline left round content last) := by
  have hplan : ∀ content round board, ∀ d ∈ members.map (request content round board),
      d.Plain members := by
    intro content round board d hd
    obtain ⟨m, hm, rfl⟩ := List.mem_map.mp hd
    exact ⟨hm, (Message.isError_withMetadata (by decide)).trans
      (Message.isError_withMetadata (by decide))⟩
  have hpost : ∀ round replies, Does G (postReplies round replies) := by
    intro round replies
    induction replies with
    | nil => exact does_pure _
    | cons reply replies ih => exact (does_post hposts _ _).bind fun _ => ih
  induction left generalizing round content last with
  | zero => exact does_pure _
  | succ left ih =>
    refine (does_beginRound h round).bind fun begun =>
      Routine.Meets.ite (fun _ => ?_) fun _ => does_pure _
    refine does_get.bind fun ⟨_, state⟩ => ?_
    refine (does_dispatchRound hmembers h (hplan _ _ _)).bind fun calls => ?_
    refine (hpost round _).bind fun _ => (does_endRound h round).bind fun _ => ?_
    refine Routine.Meets.ite (fun _ => does_pure _) fun _ => ?_
    exact Routine.Meets.ite (fun _ => does_pure _) fun _ => ih _ _ _

theorem Pipeline.does_steps (h : Custom G) (o : PipelineOptions) {chain : List Member}
    (hchain : ∀ m ∈ chain, m ∈ members) (step : Nat) (sender content : String) :
    Does G (steps o deadline chain step sender content) := by
  have htry : ∀ {m}, m ∈ members → ∀ sender content step left attempt,
      Does G (tryStep deadline sender content step m left attempt) := by
    intro m hm sender content step left attempt
    induction left generalizing attempt with
    | zero => exact does_pure _
    | succ left ih =>
      let d : Dispatch := ⟨m, request sender content step attempt m⟩
      have hd : d.Plain members := ⟨hm, (Message.isError_withMetadata (by decide)).trans
        (Message.isError_withMetadata (by decide))⟩
      refine (does_call hmembers h hd).bind fun outcome => ?_
      cases outcome with
      | response reply => exact does_pure _
      | failed record => exact ih (attempt + 1)
      | skipped => exact does_pure _
  induction chain generalizing step sender content with
  | nil => exact does_pure _
  | cons m rest ih =>
    have hrest := ih fun x hx => hchain x (List.mem_cons_of_mem m hx)
    refine (does_beginRound h step).bind fun begun =>
      Routine.Meets.ite (fun _ => ?_) fun _ => does_pure _
    refine (htry (hchain m List.mem_cons_self) _ _ _ _ _).bind fun outcome => ?_
    refine (does_endRound h step).bind fun _ => ?_
    cases outcome with
    | produced reply => exact hrest _ _ _
    | failed => exact Routine.Meets.ite (fun _ => hrest _ _ _) fun _ => does_pure _
    | stopped => exact does_pure _

theorem MapReduce.does_run (h : Custom G) {job : Job} (hlimit : job.concurrency ≠ some 0)
    (input : String) : Does G (run job members deadline input) := by
  have hplan : ∀ d ∈ plan members (job.split input), d.Plain members := by
    intro d hd
    have hmember := (plan_for members (job.split input) d hd).1
    obtain ⟨p, -, hp⟩ := List.mem_filterMap.mp hd
    obtain ⟨m, -, rfl⟩ := Option.map_eq_some_iff.mp hp
    exact ⟨hmember, (Message.isError_withMetadata (by decide)).trans
      (Message.isError_withMetadata (by decide))⟩
  have hpieces : Does G (mapPieces deadline job.concurrency (plan members (job.split input))) := by
    unfold mapPieces
    cases hc : job.concurrency with
    | none => exact (does_dispatchRound hmembers h hplan).bind fun _ => does_pure _
    | some limit =>
      have hpos : 0 < limit := Nat.pos_of_ne_zero fun hzero => hlimit (by rw [hc, hzero])
      exact (does_dispatchBounded hmembers h hpos hplan).bind fun _ => does_pure _
  have hround : Does G (mapRound job members deadline input) := by
    refine (does_beginRound h 0).bind fun begun =>
      Routine.Meets.ite (fun _ => ?_) fun _ => does_pure _
    exact hpieces.bind fun _ => (does_endRound h 0).bind fun _ => does_pure _
  refine hround.bind fun replies => ?_
  exact (does_gather h (f := fun r => { r with messages := r.messages.push _ }) (fun _ => rfl)
    fun _ => rfl).bind fun _ => does_pure _

theorem Debate.does_run (h : Custom G) (o : DebateOptions) (input : String) :
    Does G (run o members deadline input) := by
  have hplan : ∀ context round, ∀ d ∈ (debaters o members).map (request context round),
      d.Plain members := by
    intro context round d hd
    obtain ⟨m, hm, rfl⟩ := List.mem_map.mp hd
    exact ⟨(List.mem_filter.mp hm).1, (Message.isError_withMetadata (by decide)).trans
      (Message.isError_withMetadata (by decide))⟩
  have hrounds : ∀ left round context last,
      Does G (rounds (debaters o members) deadline left round context last) := by
    intro left
    induction left with
    | zero => exact fun _ _ _ => does_pure _
    | succ left ih =>
      intro round context last
      refine (does_beginRound h round).bind fun begun =>
        Routine.Meets.ite (fun _ => ?_) fun _ => does_pure _
      refine (does_dispatchRound hmembers h (hplan context round)).bind fun calls => ?_
      exact (does_endRound h round).bind fun _ => ih _ _ _
  refine (hrounds _ 0 input []).bind fun ⟨context, last⟩ => ?_
  dsimp only
  cases o.voting with
  | majority => exact does_pure _
  | unanimous => exact does_pure _
  | judge =>
    unfold judgeVerdict
    cases hjudge : judge? o members with
    | none => exact does_pure _
    | some judge =>
      let d : Dispatch := ⟨judge, verdictRequest context judge⟩
      have hd : d.Plain members :=
        ⟨List.mem_of_find?_eq_some hjudge, Message.isError_withMetadata (by decide)⟩
      refine (does_call hmembers h hd).bind fun outcome => ?_
      cases outcome <;> exact does_pure _

/-- **Every run keeps to a custom** that its members keep to, and that a swarm keeps when it writes
on the blackboard. -/
theorem Strategy.meets_custom (h : Custom G) {strategy : Strategy}
    (hposts : strategy.kind = .swarm → Posts G) (hworks : strategy.Works) (input : String) :
    Does G (strategy.run members deadline input) := by
  cases strategy with
  | supervisor o maxRounds =>
    exact (Supervisor.does_rounds hmembers h o.delegation input maxRounds 0 []).bind fun _ =>
      does_pure _
  | swarm o maxRounds =>
    refine (does_post (hposts rfl) "input" input).bind fun _ => ?_
    exact (Swarm.does_rounds hmembers h (hposts rfl) o.converged maxRounds 0 input []).bind
      fun _ => does_pure _
  | pipeline o =>
    exact Pipeline.does_steps hmembers h o (fun _ hm => hm) 0 orchestratorName input
  | mapReduce job => exact MapReduce.does_run hmembers h hworks input
  | debate o => exact Debate.does_run hmembers h o input

end

end Ensemble
