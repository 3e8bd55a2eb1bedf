import Ensemble.Routine.Order

/-!
# Pools of routines

A pool works on many routines at once. Those that are ready run in turn, each until it waits or is
done; what is done is settled before the next one runs, and makes room for the next routine of the
queue, which goes behind those that are ready. When none is ready the pool itself waits, for the
earliest of its members, and then everything that is due becomes ready in the order in which the
delays were started.
-/

namespace Ensemble.Routine

variable {σ α : Type}

/-- A member of a pool that waits for the timer. -/
structure Suspended (σ α : Type) where
  wake : Wake
  resume : Routine σ α

namespace Suspended

/-- Adds a member to a list in order of waking. -/
def insert (m : Suspended σ α) : List (Suspended σ α) → List (Suspended σ α)
  | [] => [m]
  | n :: rest => if m.wake.before n.wake then m :: n :: rest else n :: insert m rest

theorem insert_perm (m : Suspended σ α) (l : List (Suspended σ α)) :
    (insert m l).Perm (m :: l) := by
  induction l with
  | nil => exact List.Perm.refl _
  | cons n rest ih =>
    simp only [insert]
    split
    · exact List.Perm.refl _
    · exact (ih.cons n).trans (List.Perm.swap m n rest)

/-- The members at the front of an ordered list that are due. -/
def due (timer : Nat) (l : List (Suspended σ α)) : List (Suspended σ α) :=
  l.takeWhile fun m => m.wake.due ≤ timer

/-- The members of an ordered list that are not due. -/
def later (timer : Nat) (l : List (Suspended σ α)) : List (Suspended σ α) :=
  l.dropWhile fun m => m.wake.due ≤ timer

end Suspended

/-- The state of a pool: members that are ready, members that wait, in order of waking, and
routines that have not been started. -/
structure Pool (σ α : Type) where
  ready : List (Routine σ α)
  waiting : List (Suspended σ α)
  queue : List (Routine σ α)

namespace Pool

/-- All routines of the pool. -/
def group (p : Pool σ α) : Group σ α :=
  ⟨p.ready ++ p.waiting.map (·.resume) ++ p.queue⟩

/-- A member has left: the first of the queue takes its place, behind those that are ready. -/
def refill (ready : List (Routine σ α)) (waiting : List (Suspended σ α)) :
    List (Routine σ α) → Pool σ α
  | [] => ⟨ready, waiting, []⟩
  | q :: queue => ⟨ready ++ [q], waiting, queue⟩

theorem group_refill (ready : List (Routine σ α)) (waiting : List (Suspended σ α))
    (queue : List (Routine σ α)) :
    (refill ready waiting queue).group.members.Perm
      (ready ++ waiting.map (·.resume) ++ queue) := by
  cases queue with
  | nil => exact List.Perm.refl _
  | cons q queue =>
    simp only [refill, group, List.append_assoc]
    refine List.Perm.append_left _ ?_
    exact (@List.perm_middle _ q (waiting.map (·.resume)) queue).symm

/-- Time has passed for a pool whose first waiting member is `first`: it and all that are due
become ready. -/
def awaken (first : Suspended σ α) (rest : List (Suspended σ α)) (queue : List (Routine σ α))
    (timer : Nat) : Pool σ α :=
  ⟨first.resume :: (Suspended.due timer rest).map (·.resume), Suspended.later timer rest, queue⟩

theorem group_awaken (first : Suspended σ α) (rest : List (Suspended σ α))
    (queue : List (Routine σ α)) (timer : Nat) :
    (awaken first rest queue timer).group = (Pool.mk [] (first :: rest) queue).group := by
  simp only [awaken, group, Suspended.due, Suspended.later, List.nil_append, List.map_cons,
    List.cons_append, Group.mk.injEq]
  rw [← List.map_append, List.takeWhile_append_dropWhile]

/-- Works on a pool until all its routines are done. What is done changes the state by `settle`;
the results come in the order in which the routines were done, behind those of `settled`, which
stand in reverse. -/
def run (settle : α → σ → σ) (p : Pool σ α) (settled : List α) (c : Clock) (s : σ) :
    Progress σ (List α) :=
  match p with
  | ⟨r :: ready, waiting, queue⟩ =>
    match _h : r c s with
    | .done c s a => run settle (refill ready waiting queue) (a :: settled) c (settle a s)
    | .waiting w c s k => run settle ⟨ready, Suspended.insert ⟨w, k⟩ waiting, queue⟩ settled c s
  | ⟨[], first :: rest, queue⟩ =>
    .waiting first.wake c s fun c s => run settle (awaken first rest queue c.timer) settled c s
  | ⟨[], [], _⟩ => .done c s settled.reverse
termination_by (p.group, if p.ready.isEmpty then 1 else 0)
decreasing_by
  · refine Prod.Lex.left _ _ ⟨r, ready ++ waiting.map (·.resume) ++ queue, ?_, Or.inl ?_⟩
    · exact List.Perm.refl _
    · exact group_refill ready waiting queue
  · refine Prod.Lex.left _ _ ⟨r, ready ++ waiting.map (·.resume) ++ queue, ?_, Or.inr ⟨k, ?_, ?_⟩⟩
    · exact List.Perm.refl _
    · exact ⟨_, _, _, _, _, _h⟩
    · have h₁ := ((Suspended.insert_perm ⟨w, k⟩ waiting).map fun m => m.resume).append_left ready
      exact (h₁.append_right queue).trans
        ((@List.perm_middle _ k ready _).append_right queue)
  · rw [group_awaken]
    exact Prod.Lex.right _ (by simp [awaken])

end Pool

/-- Works on all routines at once. -/
def together (settle : α → σ → σ) (routines : List (Routine σ α)) : Routine σ (List α) :=
  Pool.run settle ⟨routines, [], []⟩ []

/-- Works on at most `limit` routines at a time; the others wait in a queue. -/
def bounded (limit : Nat) (settle : α → σ → σ) (routines : List (Routine σ α)) :
    Routine σ (List α) :=
  Pool.run settle ⟨routines.take limit, [], routines.drop limit⟩ []

end Ensemble.Routine
