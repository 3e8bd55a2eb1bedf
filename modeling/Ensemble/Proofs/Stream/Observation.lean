import Ensemble.Orchestration

/-!
# Reading a run does not change it

A stream goes on only while it is read, yet what is read is the run that `execute` does.
`stream_observes` says so for every orchestration and every world: to the end a stream shows the
result of the straight run and leaves its world, a reader who stops early has received the first
events of the full stream, and a reader who cancels has received nothing but those before that.
-/

namespace Ensemble.Orchestration

/-- Who reads to the end and does not interfere receives the result of the straight run. -/
theorem readOn_finish (p : Progress Scene RunResult) (journal received : Nat) :
    ∃ announced, readOn {} p journal received =
      (⟨p.finish.1, p.finish.2.1.1⟩, announced ++ [.complete p.finish.2.2]) := by
  induction p generalizing journal received with
  | done c s result => exact ⟨s.2.eventsFrom journal, rfl⟩
  | waiting w c s k ih =>
    obtain ⟨m, r⟩ := s
    let events := r.eventsFrom journal
    obtain ⟨announced, h⟩ := ih (c.advance w.due) (m, r) r.journal.size (received + events.length)
    have hread : readOn {} (.waiting w c (m, r) k) journal received =
        let rest := readOn {} (k (c.advance w.due) (m, r)) r.journal.size
          (received + events.length)
        (rest.1, events ++ rest.2) := rfl
    refine ⟨events ++ announced, ?_⟩
    rw [hread, h, List.append_assoc]
    rfl

variable {cancelAt : Option Nat} {k received : Nat}

theorem receive_take (events : List Event) :
    Reader.receive ⟨cancelAt, some k⟩ received events = events.take (k - received) := rfl

theorem receive_all (events : List Event) :
    Reader.receive ⟨cancelAt, none⟩ received events = events := rfl

theorem satisfied_take : Reader.satisfied ⟨cancelAt, some k⟩ received = decide (k ≤ received) := rfl

theorem satisfied_all : Reader.satisfied ⟨cancelAt, none⟩ received = false := rfl

/-- A reader who has had enough after so many events has received the first of those that a reader
to the end receives. -/
theorem readOn_take (hk : received < k) (p : Progress Scene RunResult) (journal : Nat) :
    (readOn ⟨cancelAt, some k⟩ p journal received).2 =
      (readOn ⟨cancelAt, none⟩ p journal received).2.take (k - received) := by
  induction p generalizing journal received with
  | done c s result => rfl
  | waiting w c s n ih =>
    obtain ⟨m, r⟩ := s
    simp only [readOn, receive_take, receive_all, satisfied_take, satisfied_all]
    rcases Nat.lt_or_ge (received + (r.eventsFrom journal).length) k with hfew | hmany
    · -- not enough yet: both go on from the same state
      have hall : (r.eventsFrom journal).take (k - received) = r.eventsFrom journal :=
        List.take_of_length_le (by omega)
      simp only [hall, decide_eq_true_eq, if_neg (Nat.not_le.mpr hfew), Bool.false_eq_true,
        if_false]
      rw [List.take_append, hall, Nat.sub_sub]
      exact congrArg (r.eventsFrom journal ++ ·) (ih _ _ hfew r.journal.size)
    · have hlen : received + ((r.eventsFrom journal).take (k - received)).length = k := by
        rw [List.length_take]
        omega
      simp only [hlen, Nat.le_refl, decide_true, if_true, Bool.false_eq_true, if_false]
      rw [List.take_append_of_le_length (by omega)]

/-- Up to the event at which a reader cancels, it makes no difference that it will. -/
theorem readOn_cancel (hk : received < k) (p : Progress Scene RunResult) (journal : Nat) :
    (readOn ⟨some k, none⟩ p journal received).2.take (k - received) =
      (readOn ⟨none, none⟩ p journal received).2.take (k - received) := by
  induction p generalizing journal received with
  | done c s result => rfl
  | waiting w c s n ih =>
    obtain ⟨m, r⟩ := s
    simp only [readOn, receive_all, satisfied_all, Bool.false_eq_true, if_false]
    rcases Nat.lt_or_ge (received + (r.eventsFrom journal).length) k with hfew | hmany
    · -- the reader has not cancelled yet
      have hreact : Reader.react ⟨some k, none⟩ received (r.eventsFrom journal) m = m :=
        if_neg fun h => absurd h.2 (Nat.not_le.mpr hfew)
      have hnone : Reader.react ⟨none, none⟩ received (r.eventsFrom journal) m = m := rfl
      rw [hreact, hnone, List.take_append, List.take_append, Nat.sub_sub]
      exact congrArg (_ ++ ·) (ih _ _ hfew r.journal.size)
    · rw [List.take_append_of_le_length (by omega), List.take_append_of_le_length (by omega)]

/-- **Reading a run does not change it.** Read to the end, a stream ends with the result of the
straight run and leaves the same world; stopped after `k` events it has given the first `k`, and
none of them depends on a cancellation behind the `k`-th. Who takes no event starts nothing. -/
theorem stream_observes (o : Orchestration) (stamp : RunStamp) (input : String) (w : World) :
    (∃ announced, o.stream stamp {} input w =
      ((o.execute stamp input w).1, announced ++ [.complete (o.execute stamp input w).2])) ∧
    (∀ cancelAt k, (o.stream stamp ⟨cancelAt, some k⟩ input w).2 =
      (o.stream stamp ⟨cancelAt, none⟩ input w).2.take k) ∧
    (∀ k, (o.stream stamp ⟨some k, none⟩ input w).2.take k =
      (o.stream stamp {} input w).2.take k) ∧
    ∀ cancelAt, o.stream stamp ⟨cancelAt, some 0⟩ input w = (w, []) := by
  refine ⟨readOn_finish _ 0 0, ?_, ?_, fun _ => rfl⟩
  · intro cancelAt k
    cases k with
    | zero => rfl
    | succ k => exact readOn_take (Nat.succ_pos k) _ 0
  · intro k
    cases k with
    | zero => rfl
    | succ k => exact readOn_cancel (Nat.succ_pos k) _ 0

end Ensemble.Orchestration
