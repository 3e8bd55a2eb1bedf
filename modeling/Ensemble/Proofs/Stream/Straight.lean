import Ensemble.Proofs.Participant.Tally
import Ensemble.Proofs.Routine.Straight
import Ensemble.Proofs.Stream.Stopping

/-!
# Runs that nobody interferes with

Where a run of an orchestration ends that is left to itself: `Orchestration.ending` is its output
and the moment of its end, and what `execute` returns, what a stream shows and what its reading says
are all made of it.
-/

namespace Ensemble

open Run

namespace Orchestration

/-- The moment at which a run of the orchestration begins. -/
def beginning (o : Orchestration) (w : World) : Moment Scene :=
  (w.clock, w.memory, .initial o.ids)

/-- The output of a run that is left to itself, and the moment at which it ends. -/
def ending (o : Orchestration) (input : String) (w : World) : String × Moment Scene :=
  (o.strategy.run o.members (.after w.clock.now o.timeout) input).runFrom (o.beginning w)

/-- The result that is made of an ending. -/
def report (o : Orchestration) (stamp : RunStamp) (started : Nat) (e : String × Moment Scene) :
    RunResult :=
  ((o.conclude stamp (.after started o.timeout) started e.1).runFrom e.2).1

theorem runFrom_drive (o : Orchestration) (stamp : RunStamp) (input : String) (w : World) :
    (o.drive stamp input).runFrom (o.beginning w) =
      (o.report stamp w.clock.now (o.ending input w), (o.ending input w).2) := by
  simp only [drive, Routine.runFrom_bind, Routine.runFrom_clock, beginning]
  rfl

theorem execute_eq (o : Orchestration) (stamp : RunStamp) (input : String) (w : World) :
    o.execute stamp input w =
      (⟨(o.ending input w).2.1, (o.ending input w).2.2.1⟩,
        o.report stamp w.clock.now (o.ending input w)) := by
  have hexecute : o.execute stamp input w =
      let e := (o.drive stamp input).runFrom (o.beginning w)
      (⟨e.2.1, e.2.2.1⟩, e.1) := rfl
  rw [hexecute, runFrom_drive]

/-- Without a reader who interferes, the last snapshot of a reading is where the straight run
ends. -/
theorem follow_last (p : Progress Scene RunResult) (journal received : Nat) :
    (follow {} p journal received).last.world = ⟨p.finish.1, p.finish.2.1.1⟩ ∧
      (follow {} p journal received).last.state = p.finish.2.1.2 := by
  induction p generalizing journal received with
  | done c s result => exact ⟨rfl, rfl⟩
  | waiting w c s k ih => exact ih (c.advance w.due) s s.2.journal.size _

theorem reading_last (o : Orchestration) (stamp : RunStamp) (input : String) (w : World) :
    (o.reading stamp {} input w).last.world = ⟨(o.ending input w).2.1, (o.ending input w).2.2.1⟩ ∧
      (o.reading stamp {} input w).last.state = (o.ending input w).2.2.2 := by
  have hlast := follow_last (o.drive stamp input w.clock (w.memory, .initial o.ids)) 0 0
  have hdrive := o.runFrom_drive stamp input w
  have hend : ((o.drive stamp input).runFrom (o.beginning w)).2 = (o.ending input w).2 := by
    rw [hdrive]
  rw [← hend]
  exact hlast

/-- Whoever reads on to the end without interfering receives what the journal of the straight run
announces, and then its result. -/
theorem stream_eq {o : Orchestration} (ho : o.Accepted) (stamp : RunStamp) (input : String)
    (w : World) :
    o.stream stamp {} input w =
      ((o.execute stamp input w).1,
        (o.ending input w).2.2.2.events ++ [.complete (o.execute stamp input w).2]) := by
  obtain ⟨hworld, hstate⟩ := o.reading_last stamp input w
  obtain ⟨result, _, hresult, hevents, -⟩ :=
    reading_to_end ho stamp (show Reader.take {} = none from rfl) input w
  have hexecute : some result = some (o.execute stamp input w).2 :=
    hresult.symm.trans (o.reading_execute stamp input w)
  rw [stream_eq_reading, hevents, hworld, hstate, Option.some_inj.mp hexecute, execute_eq]

/-- A run that is left to itself keeps to every regime that its members keep to, and has a ledger in
the end. -/
theorem ending_meets {o : Orchestration} (ho : o.Accepted) {w : World}
    {K : Regime (.after w.clock.now o.timeout)} (hmembers : ∀ m ∈ o.members, m.Within K)
    (input : String) :
    K.step w.clock (w.memory, .initial o.ids) (o.ending input w).2.1 (o.ending input w).2.2 ∧
      Nonempty (Ledger o.strategy o.members (o.ending input w).2.2.2) := by
  have hrun := Strategy.meets_run hmembers ho.works input
  exact hrun.runFrom (x := o.beginning w) (fun s => (rfl : s.2 = s.2)) K.elapse rfl

theorem ledger_ending {o : Orchestration} (ho : o.Accepted) (input : String) (w : World) :
    Nonempty (Ledger o.strategy o.members (o.ending input w).2.2.2) :=
  (ending_meets ho (fun m _ => m.within_history _) input).2

/-! ## Runs that nobody stops -/

/-- The journal of a run that is left to itself. -/
theorem stretch_ending {o : Orchestration} (ho : o.Accepted)
    (hmembers : ∀ m ∈ o.members, ∀ message, (m.handle message).Forward) (input : String)
    (w : World) :
    Stretch (.after w.clock.now o.timeout) (instant w.clock w.memory)
      (instant (o.ending input w).2.1 (o.ending input w).2.2.1)
      (o.ending input w).2.2.2.journal.toList := by
  have hwithin : ∀ m ∈ o.members, m.Within (.advances (.after w.clock.now o.timeout)) :=
    fun m hm => Member.within_advances (hmembers m hm) _
  obtain ⟨entries, hjournal, hstretch⟩ := (ending_meets ho hwithin input).1
  have hentries : (o.ending input w).2.2.2.journal.toList = entries := hjournal
  rw [hentries]
  exact hstretch

/-- What was forgone shows in the result. -/
theorem flagged_of_forgone {o : Orchestration} (ho : o.Accepted)
    (hmembers : ∀ m ∈ o.members, ∀ message, (m.handle message).Forward) (stamp : RunStamp)
    {input : String} {w : World} (h : (o.ending input w).2.2.2.Forgone) :
    (o.execute stamp input w).2.cancelled = true ∨ (o.execute stamp input w).2.timedOut = true := by
  obtain ⟨_, hmem, hforgoes⟩ := h
  obtain ⟨e, he, rfl⟩ := List.mem_map.mp hmem
  have hstopped := (stretch_ending ho hmembers input w).stopped_of_forgoes he hforgoes
  rw [execute_eq]
  exact Bool.or_eq_true_iff.mp hstopped

/-- Nothing was forgone in a run that shows neither flag. -/
theorem not_forgone {o : Orchestration} (ho : o.Accepted)
    (hmembers : ∀ m ∈ o.members, ∀ message, (m.handle message).Forward) {stamp : RunStamp}
    {input : String} {w : World} (hgo : (o.execute stamp input w).2.cancelled = false ∧
      (o.execute stamp input w).2.timedOut = false) : ¬(o.ending input w).2.2.2.Forgone := by
  intro hforgone
  have hflagged := flagged_of_forgone ho hmembers stamp hforgone
  rw [hgo.1, hgo.2] at hflagged
  rcases hflagged with h | h <;> cases h

/-- Members of which none cancels leave the flag as it is. -/
theorem within_calm {participants : List Participant} {options : Options} {o : Orchestration}
    (h : ofParticipants participants options = .ok o) (hcalm : ∀ p ∈ participants, p.Calm)
    (deadline : Deadline) :
    ∀ m ∈ o.members, m.Within (.onMemory .calm Guarantee.calm_timeless deadline) := by
  intro m hm
  rw [(accepted_of_build h).2] at hm
  obtain ⟨p, hp, i, rfl⟩ := Participant.of_mem_members hm
  exact Member.within_onMemory _ ((hcalm p hp).member i) _

/-- A run without a timeout is not stopped if none of its participants cancels it and nobody has. -/
theorem unflagged_of_calm {participants : List Participant} {options : Options} {o : Orchestration}
    (h : ofParticipants participants options = .ok o) (hcalm : ∀ p ∈ participants, p.Calm)
    (htimeout : o.timeout = none) (stamp : RunStamp) (input : String) {w : World}
    (hw : w.memory.cancelled = false) :
    (o.execute stamp input w).2.cancelled = false ∧
      (o.execute stamp input w).2.timedOut = false := by
  obtain ⟨ho, -⟩ := accepted_of_build h
  rw [execute_eq]
  refine ⟨(ending_meets ho (within_calm h hcalm _) input).1 hw, ?_⟩
  let ended := (o.ending input w).2.1.now
  have hnever : (Deadline.after w.clock.now o.timeout).passed ended = false := by
    rw [htimeout]
    rfl
  exact hnever

end Orchestration

end Ensemble
