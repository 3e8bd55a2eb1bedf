import Ensemble.Proofs.Isolation.Share
import Ensemble.Proofs.Timing.Indifference
import Ensemble.Proofs.Timing.Truncation

/-!
# Failures stay where they are

In a supervisor's run, and in one that maps all pieces at once, nobody's calls depend on what anyone
else does. `failure_isolated` compares two runs in which one participant is the same and all others
are replaced, by ones that reply otherwise, fail, or take another time: the share of the one that
stays is the same in both. Whoever is called in a round is known beforehand, so the share is carried
from round to round.
-/

namespace Ensemble

open List (Forall₂)

open Run

/-! ## Exchanges -/

/-- The messages of a transcript in pairs. -/
def pairs : List Message → List (Message × Message)
  | message :: reply :: rest => (message, reply) :: pairs rest
  | _ => []

/-- A transcript of calls has a pair for each, and none for the message of a reduction. -/
theorem pairs_exchanges (calls : List Call) {coda : List Message} (hcoda : coda.length ≤ 1) :
    pairs (calls.flatMap (·.exchange) ++ coda) =
      calls.map fun c => (c.dispatch.message, c.reply) := by
  induction calls with
  | nil =>
    match coda, hcoda with
    | [], _ => rfl
    | [_], _ => rfl
  | cons c calls ih =>
    rw [List.map_cons, ← ih]
    rfl

/-- The messages to a participant in a transcript, each with the reply behind it. -/
def exchanges (messages : List Message) (id : String) : List (Message × Message) :=
  (pairs messages).filter (·.1.recipient = some id)

/-- What a transcript shows of a participant are the calls that were made of it. -/
theorem exchanges_calls {calls : List Call} {coda : List Message} (hcoda : coda.length ≤ 1)
    (haddressed : ∀ c ∈ calls, c.dispatch.message.recipient = some c.id) (id : String) :
    exchanges (calls.flatMap (·.exchange) ++ coda) id =
      (calls.filter (·.id = id)).map fun c => (c.dispatch.message, c.reply) := by
  rw [exchanges, pairs_exchanges calls hcoda, List.filter_map]
  refine congrArg _ (List.filter_congr fun c hc => ?_)
  rw [Function.comp_apply, haddressed c hc, decide_eq_decide, Option.some_inj]

theorem Strategy.Coda.length_le {strategy : Strategy} {coda : List Message}
    (h : strategy.Coda coda) : coda.length ≤ 1 := by
  cases strategy with
  | mapReduce job =>
    obtain ⟨replies, rfl⟩ := h
    exact Nat.le_refl 1
  | supervisor o n =>
    obtain rfl : coda = [] := h
    exact Nat.zero_le 1
  | swarm o n =>
    obtain rfl : coda = [] := h
    exact Nat.zero_le 1
  | pipeline o =>
    obtain rfl : coda = [] := h
    exact Nat.zero_le 1
  | debate o =>
    obtain rfl : coda = [] := h
    exact Nat.zero_le 1

theorem AgentResults.find?_table {ids : List String} {id : String} (hid : id ∈ ids)
    (replies : String → List Message) : (table ids replies).find? id = some (replies id) := by
  induction ids with
  | nil => cases hid
  | cons x ids ih =>
    by_cases hx : x = id
    · simp [table, AgentResults.find?, hx]
    · have hrest := ih ((List.mem_cons.mp hid).resolve_left fun h => hx h.symm)
      rw [table, AgentResults.find?, List.map_cons, List.find?_cons_of_neg (by simpa using hx)]
      exact hrest

/-- The results of a participant are the replies that the transcript shows of it. -/
theorem Ledger.results_exchanges {strategy : Strategy} {members : List Member} {r : RunState}
    (l : Ledger strategy members r) (hnodup : (members.map (·.id)).Nodup) {id : String}
    (hid : id ∈ members.map (·.id)) :
    r.results.find? id = some ((exchanges r.messages.toList id).map (·.2)) := by
  have haddressed : ∀ c ∈ l.calls, c.dispatch.message.recipient = some c.id :=
    fun c hc => (l.addressed c hc).2
  have hmessages : r.messages.toList = l.calls.flatMap (·.exchange) ++ l.coda := l.messages
  rw [l.results_table hnodup, AgentResults.find?_table hid, hmessages,
    exchanges_calls l.closes.length_le haddressed, List.map_map]
  rfl

/-! ## Runs that go on -/

namespace Conduct

variable {k : Conduct} {r₀ : RunState} {share : Share} {x : Moment Scene}

theorem Shows.beginRound (h : k.Shows r₀ x.2 share) (round : Nat) :
    ((Run.beginRound none round).runFrom x).1 = true ∧
      k.Shows r₀ ((Run.beginRound none round).runFrom x).2.2 share := by
  have hgo : (x.2.1.cancelled || Deadline.passed none x.1.now) = false := by
    rw [h.going]
    rfl
  rw [Routine.runFrom_done (beginRound_begins round hgo)]
  exact ⟨rfl, h.kept (gains_roundBegun round x.1 x.2) h.going rfl (fun _ hc => by cases hc) rfl rfl⟩

theorem Shows.endRound (h : k.Shows r₀ x.2 share) (round : Nat) :
    k.Shows r₀ ((Run.endRound round).runFrom x).2.2 share :=
  h.noted rfl rfl x.1

/-- Plans for members of the same names have the same messages for the participant. -/
theorem messages_alike {plan plan' : List Dispatch}
    (h : Forall₂ (Dispatch.Alike fun m m' => m.id = m'.id) plan plan') :
    plan.filterMap k.message? = plan'.filterMap k.message? := by
  induction h with
  | nil => rfl
  | @cons d d' _ _ hd _ ih =>
    have hsame : k.message? d = k.message? d' := by
      rw [message?, message?, hd.1, hd.2]
    rw [List.filterMap_cons, List.filterMap_cons, hsame, ih]

end Conduct

section

variable {k : Conduct} {r₀ r₀' : RunState} {share : Share} {x x' : Moment Scene}
  {members members' : List Member}

/-- The rounds of a supervisor leave the same share whoever else takes part. -/
theorem Supervisor.shows_rounds (hnames : Forall₂ (fun m m' => m.id = m'.id) members members')
    (hmembers : k.Places members) (hmembers' : k.Places members') (delegation : Delegation)
    (input : String) (left round : Nat) (replies replies' : List (String × Message))
    (h : k.Shows r₀ x.2 share) (h' : k.Shows r₀' x'.2 share) :
    ∃ share,
      k.Shows r₀ ((rounds delegation members none input left round replies).runFrom x).2.2 share ∧
      k.Shows r₀' ((rounds delegation members' none input left round replies').runFrom x').2.2
        share := by
  induction left generalizing round replies replies' x x' share with
  | zero => exact ⟨share, h, h'⟩
  | succ left ih =>
    obtain ⟨hbegun, hs⟩ := h.beginRound round
    obtain ⟨hbegun', hs'⟩ := h'.beginRound round
    have hplan := alike_plan (fun h => h) hnames delegation input round
    have hround := hs.dispatchRound hmembers (plan_for delegation members input round)
    have hround' := hs'.dispatchRound hmembers' (plan_for delegation members' input round)
    rw [← Conduct.messages_alike hplan] at hround'
    simp only [rounds, Routine.runFrom_bind, hbegun, hbegun', if_true]
    exact ih _ _ _ (hround.endRound round) (hround'.endRound round)

/-- So does the one round of a run that maps all pieces at once. -/
theorem MapReduce.shows_mapRound (hnames : Forall₂ (fun m m' => m.id = m'.id) members members')
    (hmembers : k.Places members) (hmembers' : k.Places members') {job : Job}
    (hunlimited : job.concurrency = none) (input : String) (h : k.Shows r₀ x.2 share)
    (h' : k.Shows r₀' x'.2 share) :
    ∃ share,
      k.Shows r₀ ((mapRound job members none input).runFrom x).2.2 share ∧
      k.Shows r₀' ((mapRound job members' none input).runFrom x').2.2 share := by
  obtain ⟨hbegun, hs⟩ := h.beginRound 0
  obtain ⟨hbegun', hs'⟩ := h'.beginRound 0
  have hplan := alike_plan (fun h => h) hnames (job.split input)
  have hround := hs.dispatchRound hmembers (plan_for members (job.split input))
  have hround' := hs'.dispatchRound hmembers' (plan_for members' (job.split input))
  rw [← Conduct.messages_alike hplan] at hround'
  simp only [mapRound, mapPieces, hunlimited, Routine.runFrom_bind, Routine.runFrom_pure, hbegun,
    hbegun', if_true]
  exact ⟨_, hround.endRound 0, hround'.endRound 0⟩

end

/-! ## Runs that are over -/

/-- What a run leaves of the share of the participant when it is over. -/
structure Conduct.Leaves (k : Conduct) (s : Scene) (share : Share) : Prop where
  calls : s.1.tally k.seat = share.calls
  asked : s.2.occurrences.filterMap (·.asks k.id) = share.asked
  done : exchanges s.2.messages.toList k.id = share.done.map fun r => (r.message, r.reply)

/-- At the end of a run the orchestration may add a message of its own to the transcript. -/
theorem Conduct.Shows.leaves {k : Conduct} {share : Share} {ids : List String} {s : Scene}
    (h : k.Shows (.initial ids) s share)
    {r : RunState} {coda : List Message} (hjournal : r.journal = s.2.journal)
    (hmessages : r.messages.toList = s.2.messages.toList ++ coda) (hcoda : coda.length ≤ 1) :
    k.Leaves (s.1, r) share := by
  obtain ⟨calls, log, hgain, haddressed, hasked, hdone⟩ := h.books
  refine ⟨h.calls, ?_, ?_⟩
  · have hoccurrences : r.occurrences = log := by
      rw [RunState.occurrences, hjournal]
      exact hgain.occurrences
    rw [hoccurrences, hasked]
  · have htranscript : r.messages.toList = calls.flatMap (·.exchange) ++ coda := by
      rw [hmessages, hgain.messages]
      rfl
    rw [htranscript, exchanges_calls hcoda haddressed, ← hdone, List.map_map]
    rfl

/-- Whom a run of the strategy calls, and in which messages, does not depend on what is replied. -/
def Strategy.AtOnce : Strategy → Prop
  | supervisor _ _ => True
  | mapReduce job => job.concurrency = none
  | _ => False

theorem Strategy.atOnce_of_options {options : Options} {strategy : Strategy}
    (h : ofOptions options = .ok strategy)
    (hkind : options.kind = .supervisor ∨ options.kind = .mapReduce)
    (hunlimited : ∀ p, options.pattern = .mapReduce p → p.concurrency = none) :
    strategy.AtOnce := by
  rw [← kind_of_options h] at hkind
  cases strategy with
  | supervisor o n => trivial
  | mapReduce job =>
    obtain ⟨p, hp, hlimit⟩ := of_mapReduce h
    rw [AtOnce, hlimit, hunlimited p hp]
    rfl
  | swarm o n => rcases hkind with h | h <;> cases h
  | pipeline o => rcases hkind with h | h <;> cases h
  | debate o => rcases hkind with h | h <;> cases h

/-- Runs whose members have the same names leave the same share of a participant that is a member of
both. -/
theorem Strategy.leaves_run {k : Conduct} {share : Share} {x x' : Moment Scene}
    {members members' : List Member} {ids ids' : List String} {strategy : Strategy}
    (hstrategy : strategy.AtOnce) (hnames : Forall₂ (fun m m' => m.id = m'.id) members members')
    (hmembers : k.Places members) (hmembers' : k.Places members') (input : String)
    (h : k.Shows (.initial ids) x.2 share) (h' : k.Shows (.initial ids') x'.2 share) :
    ∃ share, k.Leaves ((strategy.run members none input).runFrom x).2.2 share ∧
      k.Leaves ((strategy.run members' none input).runFrom x').2.2 share := by
  cases strategy with
  | supervisor o n =>
    obtain ⟨share, hs, hs'⟩ := Supervisor.shows_rounds hnames hmembers hmembers' o.delegation input
      n 0 [] [] h h'
    simp only [run, Supervisor.run, Routine.runFrom_bind, Routine.runFrom_pure]
    exact ⟨share, hs.leaves rfl (List.append_nil _).symm (Nat.zero_le 1),
      hs'.leaves rfl (List.append_nil _).symm (Nat.zero_le 1)⟩
  | mapReduce job =>
    obtain ⟨share, hs, hs'⟩ := MapReduce.shows_mapRound hnames hmembers hmembers' hstrategy input
      h h'
    simp only [run, MapReduce.run, Routine.runFrom_bind, Routine.runFrom_pure]
    exact ⟨share, hs.leaves rfl Array.toList_push (Nat.le_refl 1),
      hs'.leaves rfl Array.toList_push (Nat.le_refl 1)⟩
  | swarm o n => exact hstrategy.elim
  | pipeline o => exact hstrategy.elim
  | debate o => exact hstrategy.elim

namespace Participant

variable {team : List Participant}

theorem ids_members (position : Nat) (team : List Participant) :
    (members position team).map (·.id) = team.map (·.id) := by
  induction team generalizing position with
  | nil => rfl
  | cons p rest ih => rw [members, List.map_cons, List.map_cons, ih, id_member]

/-- A participant that answers and paces itself by number and message. -/
def conduct (q : Participant) (seat : Nat) (f : Nat → Message → Except String Message)
    (pace : Nat → Message → List Nat) : Conduct :=
  ⟨q.id, seat, f, pace⟩

/-- Of the members of a team one is the participant at a seat, and all others are others. -/
theorem places {seat : Nat} {q : Participant} {f : Nat → Message → Except String Message}
    {pace : Nat → Message → List Nat} (hunique : (team.map (·.id)).Nodup)
    (hcalm : ∀ p ∈ team, p.Calm) (hq : team[seat]? = some q) (hanswers : q.AnswersBy f)
    (hpaces : q.PacesBy pace) : (q.conduct seat f pace).Places (members 0 team) := by
  intro m hm
  rw [members_eq] at hm
  obtain ⟨⟨p, i⟩, hp, rfl⟩ := List.mem_map.mp hm
  have hp' : team[i]? = some p := List.mem_zipIdx_iff_getElem?.mp hp
  have hp'' : p.Calm := hcalm p (List.mem_of_getElem? hp')
  by_cases hi : i = seat
  · subst hi
    obtain rfl : p = q := Option.some_inj.mp (hp'.symm.trans hq)
    refine .inl ⟨id_member p i, fun message c m => ?_, hpaces i⟩
    have hkeeps := Progress.Keeps.yields (hp''.besides i i message c m) (hanswers i message c m)
    exact hkeeps.mono (fun _ _ h => h) (fun _ _ _ _ h => h) fun _ _ _ _ _ h => ⟨h.1.1, h.2⟩
  · refine .inr ⟨fun hid => hi ?_, hp''.elsewhere (Ne.symm hi)⟩
    have hids : (team.map (·.id))[i]? = (team.map (·.id))[seat]? := by
      rw [List.getElem?_map, List.getElem?_map, hp', hq]
      exact congrArg some ((id_member p i).symm.trans hid)
    have hlt : i < (team.map (·.id)).length := by
      rw [List.length_map]
      exact (List.getElem?_eq_some_iff.mp hp').1
    exact (List.getElem?_inj hlt hunique).mp hids

end Participant

namespace Orchestration

variable {o o' : Orchestration} {w w' : World}

theorem shows_beginning {k : Conduct} {n : Nat} (hw : w.memory.cancelled = false)
    (htally : w.memory.tally k.seat = n) :
    k.Shows (.initial o.ids) (o.beginning w).2 ⟨n, [], []⟩ :=
  ⟨hw, htally, [], [], .refl _, (fun _ hc => by cases hc), rfl, rfl⟩

/-- Runs of two orchestrations with one strategy leave the same share of a participant that is a
member of both, whatever the other members do. -/
theorem leaves_ending {k : Conduct} (hstrategy : o.strategy.AtOnce)
    (hsame : o'.strategy = o.strategy) (htimeout : o.timeout = none) (htimeout' : o'.timeout = none)
    (hnames : Forall₂ (fun m m' => m.id = m'.id) o.members o'.members)
    (hmembers : k.Places o.members) (hmembers' : k.Places o'.members) (input : String)
    (hw : w.memory.cancelled = false) (hw' : w'.memory.cancelled = false)
    (htally : w.memory.tally k.seat = w'.memory.tally k.seat) :
    ∃ share, k.Leaves (o.ending input w).2.2 share ∧ k.Leaves (o'.ending input w').2.2 share := by
  have hnever : ∀ start, Deadline.after start none = none := fun _ => rfl
  have hending : o.ending input w =
      (o.strategy.run o.members none input).runFrom (o.beginning w) := by
    rw [ending, htimeout, hnever]
  have hending' : o'.ending input w' =
      (o.strategy.run o'.members none input).runFrom (o'.beginning w') := by
    rw [ending, htimeout', hnever, hsame]
  rw [hending, hending']
  exact Strategy.leaves_run hstrategy hnames hmembers hmembers' input
    (shows_beginning hw htally) (shows_beginning hw' rfl)

/-- The results of a participant at the end of a run that is left to itself. -/
theorem find?_ending (ho : o.Accepted) {id : String} (hid : id ∈ o.ids) (stamp : RunStamp)
    (input : String) (w : World) :
    (o.execute stamp input w).2.agentResults.find? id =
      some ((exchanges (o.execute stamp input w).2.messages id).map (·.2)) := by
  obtain ⟨ledger⟩ := ledger_ending ho input w
  rw [execute_eq]
  exact ledger.results_exchanges ho.unique hid

/-- **Failures stay where they are.** A participant whose answers and waits depend on the number of
the call and on the message alone has the same results, is asked the same, and is called as often,
whatever the others do: they may reply otherwise, fail, or take any time, as long as nobody cancels
and there is no timeout. What the transcript shows of the participant is the same, too. -/
theorem failure_isolated {team team' : List Participant} {options : Options}
    (h : ofParticipants team options = .ok o) (h' : ofParticipants team' options = .ok o')
    (hkind : options.kind = .supervisor ∨ options.kind = .mapReduce)
    (hunlimited : ∀ p, options.pattern = .mapReduce p → p.concurrency = none)
    (htimeout : options.timeout = none) (hids : team.map (·.id) = team'.map (·.id)) {seat : Nat}
    {q : Participant} (hq : team[seat]? = some q) (hq' : team'[seat]? = some q)
    {f : Nat → Message → Except String Message} (hanswers : q.AnswersBy f)
    {pace : Nat → Message → List Nat} (hpaces : q.PacesBy pace) (hcalm : ∀ p ∈ team, p.Calm)
    (hcalm' : ∀ p ∈ team', p.Calm) (stamp stamp' : RunStamp) (input : String)
    (hw : w.memory.cancelled = false) (hw' : w'.memory.cancelled = false)
    (htally : w.memory.tally seat = w'.memory.tally seat) :
    let e := o.execute stamp input w
    let e' := o'.execute stamp' input w'
    e.2.agentResults.find? q.id = e'.2.agentResults.find? q.id ∧
    (o.begun input w).filter (·.1 = q.id) = (o'.begun input w').filter (·.1 = q.id) ∧
    exchanges e.2.messages q.id = exchanges e'.2.messages q.id ∧
    e.1.memory.tally seat = e'.1.memory.tally seat := by
  obtain ⟨ho, hmembers⟩ := accepted_of_build h
  obtain ⟨ho', hmembers'⟩ := accepted_of_build h'
  obtain ⟨hstrategy, hlimit⟩ := strategy_of_build h
  obtain ⟨hstrategy', hlimit'⟩ := strategy_of_build h'
  have hteam : o.ids = team.map (·.id) := by
    rw [ids, hmembers, Participant.ids_members]
  have hteam' : o'.ids = team.map (·.id) := by
    rw [ids, hmembers', Participant.ids_members, hids]
  have hnames : Forall₂ (fun m m' => m.id = m'.id) o.members o'.members :=
    List.forall₂_map_right_iff.mp (List.forall₂_map_left_iff.mp
      (List.forall₂_eq_eq_eq ▸ hteam.trans hteam'.symm))
  let k := q.conduct seat f pace
  have hplaces : k.Places o.members := by
    rw [hmembers]
    exact Participant.places (hteam ▸ ho.unique) hcalm hq hanswers hpaces
  have hplaces' : k.Places o'.members := by
    rw [hmembers']
    exact Participant.places (hids ▸ hteam' ▸ ho'.unique) hcalm' hq' hanswers hpaces
  obtain ⟨share, hs, hs'⟩ := leaves_ending (Strategy.atOnce_of_options hstrategy hkind hunlimited)
    (Except.ok.inj (hstrategy'.symm.trans hstrategy)) (hlimit.trans htimeout)
    (hlimit'.trans htimeout) hnames hplaces hplaces' input hw hw' htally
  have hexchanges : exchanges (o.execute stamp input w).2.messages q.id =
      exchanges (o'.execute stamp' input w').2.messages q.id := by
    rw [execute_eq, execute_eq]
    exact hs.done.trans hs'.done.symm
  have hid : q.id ∈ team.map (·.id) := List.mem_map.mpr ⟨q, List.mem_of_getElem? hq, rfl⟩
  refine ⟨?_, ?_, hexchanges, ?_⟩
  · rw [find?_ending ho (hteam ▸ hid), find?_ending ho' (hteam' ▸ hid), hexchanges]
  · rw [begun, begun, Occurrence.filter_begun, Occurrence.filter_begun]
    exact congrArg _ (hs.asked.trans hs'.asked.symm)
  · rw [execute_eq, execute_eq]
    exact hs.calls.trans hs'.calls.symm

/-- One that says back what it is told and fails when it is told again. -/
def steady : Participant :=
  .simple ⟨"steady", "", ""⟩ fun n m =>
    { delay := 3, outcome := if n = 0 then .ok m else .error "told before" }

/-- The steady one beside somebody else. -/
def besideSteady (b : Behaviour) : List Participant := [.simple ⟨"other", "", ""⟩ b, steady]

theorem besideSteady_calm {b : Behaviour} (h : ∀ n m, (b n m).cancels = false) :
    ∀ p ∈ besideSteady b, p.Calm := by
  intro p hp
  rcases List.mem_pair.mp hp with rfl | rfl
  · exact h
  · exact fun _ _ => rfl

/-- In two rounds of a supervisor the steady one has the same results beside somebody who replies at
once as beside somebody who takes long and fails. -/
theorem failure_isolated_steady :
    ∃ o o',
      ofParticipants (besideSteady fun _ m => { outcome := .ok m })
        { pattern := .supervisor {}, maxRounds := 2 } = .ok o ∧
      ofParticipants (besideSteady fun _ _ => { stall := 2, delay := 5, outcome := .error "no" })
        { pattern := .supervisor {}, maxRounds := 2 } = .ok o' ∧
      (o.execute default "go" .fresh).2.agentResults.find? "steady" =
        (o'.execute default "go" .fresh).2.agentResults.find? "steady" ∧
      (o.execute default "go" .fresh).1.memory.tally 1 =
        (o'.execute default "go" .fresh).1.memory.tally 1 := by
  let options : Options := { pattern := .supervisor {}, maxRounds := 2 }
  obtain ⟨o, h⟩ : ∃ o, ofParticipants (besideSteady fun _ m => { outcome := .ok m }) options =
      .ok o := ⟨_, rfl⟩
  obtain ⟨o', h'⟩ : ∃ o, ofParticipants
      (besideSteady fun _ _ => { stall := 2, delay := 5, outcome := .error "no" }) options =
      .ok o := ⟨_, rfl⟩
  have hunlimited : ∀ p, options.pattern = .mapReduce p → p.concurrency = none := by
    intro p hp
    cases hp
  obtain ⟨hresults, -, -, htally⟩ :=
    failure_isolated h h' (.inl rfl) hunlimited rfl rfl (show _[1]? = some steady from rfl) rfl
      (Participant.answersBy_simple _ _) (Participant.pacesBy_simple _ _)
      (besideSteady_calm fun _ _ => rfl) (besideSteady_calm fun _ _ => rfl) default default "go"
      (w := .fresh) rfl rfl rfl
  exact ⟨o, o', h, h', hresults, htally⟩

end Orchestration

end Ensemble
