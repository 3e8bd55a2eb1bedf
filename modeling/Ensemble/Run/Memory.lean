/-!
# What outlives a run

An orchestration keeps between its runs whether it has been cancelled and, for each participant,
how often it has been called. A participant that is itself an orchestration keeps the same inside,
so the memory is a tree: the node of a participant counts its calls, and below it lies the memory
of the orchestration inside it.
-/

namespace Ensemble

/-- The memory of a participant and of the orchestration inside it. -/
inductive Memory where
  | node (calls : Nat) (cancelled : Bool) (members : List Memory)

namespace Memory

/-- The memory before anything has happened. -/
def fresh : Memory := node 0 false []

instance : Inhabited Memory := ⟨fresh⟩

/-- How often the participant has been called. -/
def calls : Memory → Nat
  | node n _ _ => n

/-- Whether the orchestration has been cancelled. -/
def cancelled : Memory → Bool
  | node _ b _ => b

/-- The memories of the orchestration's participants, as far as they have any. -/
def members : Memory → List Memory
  | node _ _ ms => ms

/-- The orchestration is cancelled; it stays so. -/
def cancel : Memory → Memory
  | node n _ ms => node n true ms

/-- The participant is called once more. -/
def countCall : Memory → Memory
  | node n b ms => node (n + 1) b ms

/-- The memory of a participant by its position. -/
def member (i : Nat) (m : Memory) : Memory := m.members.getD i fresh

/-- Puts a memory at a position of a list, after fresh ones if the list is too short. -/
def place (x : Memory) : Nat → List Memory → List Memory
  | 0, [] => [x]
  | 0, _ :: rest => x :: rest
  | i + 1, [] => fresh :: place x i []
  | i + 1, m :: rest => m :: place x i rest

/-- Replaces the memory of a participant. -/
def setMember (m : Memory) (i : Nat) (x : Memory) : Memory :=
  match m with
  | node n b ms => node n b (place x i ms)

theorem getD_place (x : Memory) (i j : Nat) (ms : List Memory) :
    (place x i ms).getD j fresh = if j = i then x else ms.getD j fresh := by
  induction i generalizing j ms with
  | zero => cases ms <;> cases j <;> simp [place]
  | succ i ih =>
    cases ms with
    | nil =>
      cases j with
      | zero => simp [place]
      | succ j => simpa [place] using ih j []
    | cons m rest =>
      cases j with
      | zero => simp [place]
      | succ j => simpa [place] using ih j rest

/-- Replacing the memory of one participant touches no other. -/
@[simp] theorem member_setMember (i j : Nat) (x m : Memory) :
    (m.setMember i x).member j = if j = i then x else m.member j := by
  cases m with
  | node n b ms => exact getD_place x i j ms

@[simp] theorem cancelled_setMember (i : Nat) (x m : Memory) :
    (m.setMember i x).cancelled = m.cancelled := by
  cases m; rfl

@[simp] theorem calls_setMember (i : Nat) (x m : Memory) :
    (m.setMember i x).calls = m.calls := by
  cases m; rfl

@[simp] theorem cancelled_cancel (m : Memory) : m.cancel.cancelled = true := by
  cases m; rfl

@[simp] theorem member_cancel (i : Nat) (m : Memory) : m.cancel.member i = m.member i := by
  cases m; rfl

end Memory

end Ensemble
