import Ensemble.Proofs.Pairing.Lockstep
import Ensemble.Proofs.Pairing.Patterns
import Ensemble.Proofs.Participant.Tally
import Ensemble.Proofs.Routine.Parallel
import Ensemble.Proofs.Stream.Sections

/-!
# Runs in parallel

If the members of two runs answer in parallel, with replies that count as the same, then the runs go
side by side step by step and never lose each other: they write the same into their books, up to
what replies may differ in. `Pairing.parallel` is that pairing for any unison of moments, and
`Parallel.joins_run` carries it through all patterns.
-/

namespace Ensemble

open List (Forall₂)

/-! ## Books that are alike -/

section

variable (reply : Message → Message → Prop)

/-- Answers that count as the same: replies that do, or one failure. -/
inductive SameAnswer : Except String Message → Except String Message → Prop where
  | ok {m m'} : reply m m' → SameAnswer (.ok m) (.ok m')
  | error (detail) : SameAnswer (.error detail) (.error detail)

/-- Occurrences that differ in a reply at most. -/
inductive Occurrence.Alike : Occurrence → Occurrence → Prop where
  | same (o) : Alike o o
  | replied (id) {m m'} : reply m m' → Alike (.replied id m) (.replied id m')

/-- Events that differ in a reply at most. -/
inductive Event.Alike : Event → Event → Prop where
  | same (e) : Alike e e
  | message (id) {m m'} : reply m m' → Alike (.message id m) (.message id m')

/-- Transcripts of the same exchanges: the same messages in the same order, each followed by replies
that count as the same; in between messages of the orchestration itself may stand. -/
inductive SameExchanges : List Message → List Message → Prop where
  | nil : SameExchanges [] []
  | exchange {l l'} (m) {r r'} : SameExchanges l l' → reply r r' →
      SameExchanges (l ++ [m, r]) (l' ++ [m, r'])
  | own {l l'} (m) : SameExchanges l l' → SameExchanges (l ++ [m]) (l' ++ [m])

/-- Entries of one participant with replies that count as the same. -/
structure AgentTranscript.Alike (e e' : AgentTranscript) : Prop where
  agentId : e.agentId = e'.agentId
  messages : Forall₂ reply e.messages e'.messages

/-- Books that differ in what replies may differ in. -/
structure RunState.Alike (r r' : RunState) : Prop where
  occurrences : Forall₂ (Occurrence.Alike reply) r.occurrences r'.occurrences
  messages : SameExchanges reply r.messages.toList r'.messages.toList
  results : Forall₂ (AgentTranscript.Alike reply) r.results.entries r'.results.entries
  rounds : r.rounds = r'.rounds
  blackboard : r.blackboard = r'.blackboard

end

variable {reply : Message → Message → Prop}

theorem SameExchanges.forall₂ (hrefl : ∀ m, reply m m) {l l' : List Message}
    (h : SameExchanges reply l l') : Forall₂ reply l l' := by
  induction h with
  | nil => exact .nil
  | exchange m _ hr ih => exact List.rel_append ih (.cons (hrefl m) (.cons hr .nil))
  | own m _ ih => exact List.rel_append ih (.cons (hrefl m) .nil)

/-- What is begun does not depend on replies. -/
theorem Occurrence.Alike.begun? {o o' : Occurrence} (h : o.Alike reply o') :
    o.begun? = o'.begun? := by
  cases h <;> rfl

/-- The same calls begin. -/
theorem begun_alike {l l' : List Occurrence} (h : Forall₂ (Occurrence.Alike reply) l l') :
    l.filterMap (·.begun?) = l'.filterMap (·.begun?) := by
  induction h with
  | nil => rfl
  | cons ho _ ih => rw [List.filterMap_cons, List.filterMap_cons, ih, ho.begun?]

theorem Occurrence.Alike.event? {o o' : Occurrence} (h : o.Alike reply o') :
    Option.Rel (Event.Alike reply) o.event? o'.event? := by
  cases h with
  | same o =>
    cases o.event? with
    | none => exact .none
    | some e => exact .some (.same e)
  | replied id hm => exact .some (.message id hm)

/-- Replies that count as the same keep results alike. -/
theorem AgentResults.alike_pushEntry {id : String} {m m' : Message} (hm : reply m m')
    {l l' : List AgentTranscript} (h : Forall₂ (AgentTranscript.Alike reply) l l') :
    Forall₂ (AgentTranscript.Alike reply) (pushEntry id m l) (pushEntry id m' l') := by
  induction h with
  | nil => exact .cons ⟨rfl, .cons hm .nil⟩ .nil
  | @cons e e' l l' he hrest ih =>
    simp only [pushEntry, he.agentId]
    split
    · exact .cons ⟨rfl, List.rel_append he.messages (.cons hm .nil)⟩ hrest
    · exact .cons he ih

namespace RunState.Alike

variable {r r' : RunState}

/-- Runs of participants with the same ids begin with books that are alike. -/
theorem initial (ids : List String) : (RunState.initial ids).Alike reply (.initial ids) where
  occurrences := .nil
  messages := .nil
  results := List.forall₂_map_left_iff.mpr <| List.forall₂_map_right_iff.mpr <|
    List.forall₂_same.mpr fun _ _ => ⟨rfl, .nil⟩
  rounds := rfl
  blackboard := rfl

/-- Announcements of runs with books that are alike. -/
theorem events (h : r.Alike reply r') : Forall₂ (Event.Alike reply) r.events r'.events := by
  rw [RunState.events_eq, RunState.events_eq]
  exact List.rel_filterMap (fun _ _ ho => ho.event?) h.occurrences

/-- One more message of the orchestration itself. -/
theorem recordMessage (h : r.Alike reply r') (m : Message) :
    RunState.Alike reply { r with messages := r.messages.push m }
      { r' with messages := r'.messages.push m } where
  occurrences := h.occurrences
  messages := by
    rw [Array.toList_push, Array.toList_push]
    exact .own m h.messages
  results := h.results
  rounds := h.rounds
  blackboard := h.blackboard

end RunState.Alike

/-! ## The pairing -/

/-- Runs at moments that are alike, with books that are. -/
structure SideBySide (U : Unison Memory) (reply : Message → Message → Prop) (x y : Moment Scene) :
    Prop where
  alike : U.alike (x.1, x.2.1) (y.1, y.2.1)
  books : x.2.2.Alike reply y.2.2

/-- The unison of scenes that comes with one of memories. -/
def Unison.scene (U : Unison Memory) (reply : Message → Message → Prop) : Unison Scene where
  alike := SideBySide U reply
  wakes := U.wakes
  stall ms h := ⟨U.stall ms h.alike, h.books⟩
  delay ms h := ⟨(U.delay ms h.alike).1, (U.delay ms h.alike).2, h.books⟩
  before := U.before
  due hw h := U.due hw h.alike
  advance hw h := ⟨U.advance hw h.alike, h.books⟩

/-- Members of one name that answer in parallel. -/
structure Member.Parallel (U : Unison Memory) (reply : Message → Message → Prop) (m m' : Member) :
    Prop where
  id : m.id = m'.id
  handle : ∀ message, Routine.Parallel U (SameAnswer reply) (m.handle message) (m'.handle message)

/-- Whether runs with two deadlines have to stop together. -/
def Unison.Agrees (U : Unison Memory) (d₁ d₂ : Deadline) : Prop :=
  ∀ x y, U.alike x y → (x.2.cancelled || d₁.passed x.1.now) = (y.2.cancelled || d₂.passed y.1.now)

open Run

/-- A regime that asks nothing. -/
def Run.Regime.anything (deadline : Deadline) : Regime deadline :=
  .onMemory .anything Guarantee.anything_timeless deadline

theorem Run.holds_anything {α : Type} {deadline : Deadline} (r : Routine Scene α) :
    Holds (.anything deadline) r :=
  fun c s _ => Progress.keeps_trivial (fun _ _ _ _ => trivial) (fun _ _ _ _ _ => ⟨trivial, trivial⟩)
    c s _

/-- Two runs in parallel, which never lose each other. -/
def Pairing.parallel (U : Unison Memory) (reply : Message → Message → Prop)
    (hrefl : ∀ m, reply m m) (hcontent : ∀ m m', reply m m' → m.content = m'.content)
    (d₁ d₂ : Deadline) : Pairing d₁ d₂ where
  one := .anything d₁
  two := .anything d₂
  abreast := SideBySide U reply
  apart _ _ := False
  lasts h _ _ := h
  reply := reply
  reply_refl := hrefl
  reply_content := hcontent

namespace Parallel

variable {U : Unison Memory} {hrefl : ∀ m, reply m m}
  {hcontent : ∀ m m', reply m m' → m.content = m'.content} {d₁ d₂ : Deadline} {α : Type}
  {V : α → α → Prop}

/-- Routines that run in parallel keep runs side by side. -/
theorem abreast_of_parallel {r r' : Routine Scene α}
    (h : Routine.Parallel (U.scene reply) V r r') :
    (Pairing.parallel U reply hrefl hcontent d₁ d₂).Abreast r r' V where
  one := holds_anything r
  two := holds_anything r'
  both x y hxy := .inl (h x y hxy).finish

/-! ## Operations -/

theorem parallel_note {o o' : Occurrence} (ho : o.Alike reply o') :
    Routine.Parallel (U.scene reply) (fun _ _ => True) (note o) (note o') := by
  rintro ⟨c, s⟩ ⟨c', s'⟩ ⟨halike, hbooks⟩
  refine .done ⟨halike, ?_, hbooks.messages, hbooks.results, hbooks.rounds, hbooks.blackboard⟩
    trivial
  have hnoted := List.rel_append hbooks.occurrences (.cons ho .nil)
  simpa [RunState.occurrences] using hnoted

theorem parallel_stopping (hagrees : U.Agrees d₁ d₂) :
    Routine.Parallel (U.scene reply) Eq (stopping d₁) (stopping d₂) :=
  fun _ _ hxy => .done hxy (hagrees _ _ hxy.alike)

theorem parallel_onMemory {r r' : Routine Memory α} (h : Routine.Parallel U V r r') :
    Routine.Parallel (U.scene reply) V (onMemory r) (onMemory r') := by
  rintro ⟨c, m, b⟩ ⟨c', m', b'⟩ ⟨halike, hbooks⟩
  have hwork := h (c, m) (c', m') halike
  -- nobody else writes into the books until the work goes on behind a wait
  have hzoom : ∀ {p p' : Progress Memory α}, Progress.Parallel U V p p' →
      ∀ s s' : Scene, s.2.Alike reply s'.2 → Progress.Parallel (U.scene reply) V
        (p.zoom Prod.fst (fun m s => (m, s.2)) s) (p'.zoom Prod.fst (fun m s => (m, s.2)) s') := by
    intro p p' hp
    induction hp with
    | done hend hv => exact fun s s' hbooks => .done ⟨hend, hbooks⟩ hv
    | waiting hw hpause _ ih =>
      intro s s' hbooks
      refine .waiting hw ⟨hpause, hbooks⟩ fun x y hxy => ?_
      exact ih (x.1, x.2.1) (y.1, y.2.1) hxy.alike x.2 y.2 hxy.books
  exact hzoom hwork (m, b) (m', b') hbooks

theorem parallel_invoke (hagrees : U.Agrees d₁ d₂) {m m' : Member} (hm : m.Parallel U reply m')
    (message : Message) :
    Routine.Parallel (U.scene reply) (Outcome.Alike reply) (invoke d₁ m message)
      (invoke d₂ m' message) := by
  unfold invoke
  rw [← hm.id]
  refine (parallel_stopping hagrees).bind ?_
  rintro stop _ rfl
  have hnote : ∀ o, Routine.Parallel (U.scene reply) (fun _ _ => True) (note o) (note o) :=
    fun o => parallel_note (.same o)
  refine Routine.Parallel.ite Iff.rfl
    (fun _ => (hnote _).bind fun _ _ _ => Routine.parallel_pure .skipped) fun _ => ?_
  refine (hnote _).bind fun _ _ _ => ?_
  refine (parallel_onMemory (hm.handle message)).bind fun answer answer' hanswer => ?_
  -- the call ends whatever the answer is
  have hend : ∀ {o o' : Outcome}, o.Alike reply o' → Routine.Parallel (U.scene reply)
      (Outcome.Alike reply) (note (.callEnded m.id) >>= fun _ => pure o)
      (note (.callEnded m.id) >>= fun _ => pure o') :=
    fun ho => (hnote _).bind fun _ _ _ => Routine.parallel_pure ho
  cases hanswer with
  | ok hreply => exact (parallel_note (.replied _ hreply)).bind fun _ _ _ => hend (.response hreply)
  | error detail => exact (hnote _).bind fun _ _ _ => hend (.failed _)

/-- Calls that come out alike are recorded alike. -/
theorem sideBySide_record (id : String) (message : Message) {o o' : Outcome}
    (ho : o.Alike reply o') (hrefl : ∀ m, reply m m) {c c' : Clock} {s s' : Scene}
    (h : SideBySide U reply (c, s) (c', s')) :
    SideBySide U reply (c, record id message o s) (c', record id message o' s') := by
  obtain ⟨halike, hbooks⟩ := h
  have hrecord : ∀ {r r'}, reply r r' → RunState.Alike reply
      { s.2 with messages := (s.2.messages.push message).push r, results := s.2.results.push id r }
      { s'.2 with
        messages := (s'.2.messages.push message).push r', results := s'.2.results.push id r' } := by
    intro r r' hr
    refine ⟨hbooks.occurrences, ?_, AgentResults.alike_pushEntry hr hbooks.results, hbooks.rounds,
      hbooks.blackboard⟩
    simpa using SameExchanges.exchange message hbooks.messages hr
  cases ho with
  | response hr => exact ⟨halike, hrecord hr⟩
  | failed r => exact ⟨halike, hrecord (hrefl r)⟩
  | skipped => exact ⟨halike, hbooks⟩

theorem parallel_call (hrefl : ∀ m, reply m m) (hagrees : U.Agrees d₁ d₂) {m m' : Member}
    (hm : m.Parallel U reply m') (message : Message) :
    Routine.Parallel (U.scene reply) (Outcome.Alike reply) (call d₁ m message)
      (call d₂ m' message) := by
  unfold call
  rw [← hm.id]
  refine (parallel_invoke hagrees hm message).bind fun o o' ho => ?_
  refine Routine.Parallel.bind (V := fun _ _ => True) ?_ fun _ _ _ => Routine.parallel_pure ho
  exact fun _ _ hxy => .done (sideBySide_record m.id message ho hrefl hxy) trivial

theorem parallel_beginRound (hagrees : U.Agrees d₁ d₂) (round : Nat) :
    Routine.Parallel (U.scene reply) Eq (beginRound d₁ round) (beginRound d₂ round) := by
  unfold beginRound
  refine (parallel_stopping hagrees).bind ?_
  rintro stop _ rfl
  have hnote : ∀ o, Routine.Parallel (U.scene reply) (fun _ _ => True) (note o) (note o) :=
    fun o => parallel_note (.same o)
  refine Routine.Parallel.ite Iff.rfl
    (fun _ => (hnote _).bind fun _ _ _ => Routine.parallel_pure rfl) fun _ => ?_
  refine Routine.Parallel.bind (V := fun _ _ => True) ?_ fun _ _ _ =>
    (hnote _).bind fun _ _ _ => Routine.parallel_pure rfl
  refine Routine.parallel_modify fun h => ⟨h.alike, ?_⟩
  exact { h.books with rounds := congrArg (· + 1) h.books.rounds }

theorem parallel_post (key value : String) :
    Routine.Parallel (U.scene reply) (fun _ _ => True) (Swarm.post key value)
      (Swarm.post key value) := by
  refine Routine.parallel_modify fun h => ⟨h.alike, ?_⟩
  have hboard := congrArg (·.insertIfAbsent key (.str value)) h.books.blackboard
  exact { h.books with blackboard := hboard }

theorem parallel_recordMessage (m : Message) :
    Routine.Parallel (U.scene reply) (fun _ _ => True) (recordMessage m) (recordMessage m) :=
  Routine.parallel_modify fun h => ⟨h.alike, h.books.recordMessage m⟩

/-! ## Rounds -/

/-- Planned calls that come out alike, of messages that are the same. -/
structure SameCall (reply : Message → Message → Prop) (a b : Settled) : Prop where
  settled : a.Alike reply b
  message : a.dispatch.message = b.dispatch.message

theorem parallel_perform (hagrees : U.Agrees d₁ d₂) {d d' : Dispatch}
    (hd : d.Alike (Member.Parallel U reply) d') (n : Nat) :
    Routine.Parallel (U.scene reply) (SameCall reply) (perform d₁ d n) (perform d₂ d' n) := by
  obtain ⟨hmember, hmessage⟩ := hd
  unfold perform
  rw [← hmessage]
  refine (parallel_invoke hagrees hmember d.message).bind fun o o' ho => ?_
  exact Routine.parallel_pure ⟨⟨rfl, hmember.id, ho⟩, hmessage⟩

/-- Members of pools that run in parallel take turns of the same kind. -/
theorem inStep : (Pairing.parallel U reply hrefl hcontent d₁ d₂).InStep U.wakes
    (Routine.Parallel (U.scene reply) (SameCall reply)) where
  one _ c s _ := Progress.keeps_trivial (fun _ _ _ _ => trivial)
    (fun _ _ _ _ _ => ⟨trivial, trivial⟩) c s _
  two _ c s _ := Progress.keeps_trivial (fun _ _ _ _ => trivial)
    (fun _ _ _ _ _ => ⟨trivial, trivial⟩) c s _
  turn := by
    intro r r' hr x y hxy
    refine .inr ?_
    have hturn := hr x y hxy
    generalize r x.1 x.2 = p at hturn
    generalize r' y.1 y.2 = p' at hturn
    cases hturn with
    | @done c s a c' s' a' hend ha =>
      refine ⟨ha.settled, ?_⟩
      have hid : a.id = a'.id := ha.settled.id
      unfold settle
      rw [← hid, ← ha.message]
      exact sideBySide_record a.id _ ha.settled.outcome hrefl hend
    | waiting hw hpause hrest => exact ⟨hw, hpause, hrest⟩

theorem lockstep : (Pairing.parallel U reply hrefl hcontent d₁ d₂).Lockstep U.wakes where
  before := U.before
  due hw h := U.due hw h.alike
  advance hw h := ⟨U.advance hw h.alike, h.books⟩

theorem parallel_tasks (hagrees : U.Agrees d₁ d₂) {plan plan' : List Dispatch}
    (h : Forall₂ (Dispatch.Alike (Member.Parallel U reply)) plan plan') :
    Forall₂ (Routine.Parallel (U.scene reply) (SameCall reply)) (tasks d₁ plan)
      (tasks d₂ plan') :=
  Pairing.forall₂_tasks (fun n hd => parallel_perform hagrees hd n) h

theorem operations (hagrees : U.Agrees d₁ d₂) :
    (Pairing.parallel U reply hrefl hcontent d₁ d₂).Operations (Member.Parallel U reply) where
  ids h := h.id
  blackboard h := h.books.blackboard
  beginRound round := abreast_of_parallel (parallel_beginRound hagrees round)
  endRound round := (abreast_of_parallel (parallel_note (.same (.roundEnded round)))).weaken
    (fun _ _ _ => rfl) fun _ _ h => h
  post key value := (abreast_of_parallel (parallel_post key value)).weaken
    (fun _ _ _ => rfl) fun _ _ h => h
  call message hm := abreast_of_parallel (parallel_call hrefl hagrees hm message)
  dispatchRound hplan _ := inStep.dispatchRound lockstep (parallel_tasks hagrees hplan)

/-- **Runs of members in parallel** come to one output, with books that are alike, at moments that
are alike. -/
theorem ends_run (hrefl : ∀ m, reply m m) (hcontent : ∀ m m', reply m m' → m.content = m'.content)
    (hagrees : U.Agrees d₁ d₂) {members members' : List Member}
    (hmembers : Forall₂ (Member.Parallel U reply) members members')
    (hunique : (members.map (·.id)).Nodup) {strategy : Strategy} (hworks : strategy.Works)
    (hrespects : strategy.Respects reply) (input : String) {x y : Moment Scene}
    (hxy : SideBySide U reply x y) :
    ((strategy.run members d₁ input).runFrom x).1 = ((strategy.run members' d₂ input).runFrom y).1 ∧
      SideBySide U reply ((strategy.run members d₁ input).runFrom x).2
        ((strategy.run members' d₂ input).runFrom y).2 := by
  let X := Pairing.parallel U reply hrefl hcontent d₁ d₂
  have hops : X.Operations (Member.Parallel U reply) := operations hagrees
  have hjoins : X.Abreast (strategy.run members d₁ input) (strategy.run members' d₂ input) Eq := by
    refine Strategy.joins_run hops hmembers hunique hrespects (fun _ _ h => h) ?_ input ?_
    · intro m
      exact (abreast_of_parallel (parallel_recordMessage m)).weaken (fun _ _ _ => rfl)
        fun _ _ h => h
    · rintro job rfl
      have hplan := MapReduce.alike_plan hops.ids hmembers (job.split input)
      exact inStep.mapPieces lockstep (parallel_tasks hagrees hplan) hworks
  exact (hjoins.both x y hxy).resolve_right id

end Parallel

end Ensemble
