import Ensemble.Consensus
import Ensemble.Run.State

/-!
# Supervisor

Each round the input goes to the participants that the delegation names. All successful replies of
all rounds are aggregated into the output, ordered by round and, within a round, by registration.
-/

namespace Ensemble.Supervisor

/-- The participants asked in a round: under `roundRobin` everyone in the first one and then one
after the other, else everyone. -/
def targets (delegation : Delegation) (members : List Member) (round : Nat) : List Member :=
  match delegation, round with
  | .roundRobin, r + 1 => (members[(r + 1) % members.length]?).toList
  | _, _ => members

/-- The message that asks a participant in a round. -/
def request (input : String) (round : Nat) (m : Member) : Dispatch :=
  ⟨m, ((Message.plain orchestratorName input).addressedTo m.id).withMetadata "round" (.nat round)⟩

/-- The planned calls of a round. -/
def plan (delegation : Delegation) (members : List Member) (input : String) (round : Nat) :
    List Dispatch :=
  (targets delegation members round).map (request input round)

/-- The output that is made of all replies. -/
def aggregate (how : Aggregation) (replies : List (String × Message)) : String :=
  match how with
  | .concat => joinContents (replies.map (·.2))
  | .summarize => joinAttributed replies
  | .vote =>
    match plurality (replies.map (·.2.content)) with
    | none => ""
    | some (position, _) => (replies[position]?).elim "" (·.2.content)

/-- Up to `left` rounds from `round` on; `replies` are those of the rounds before. -/
def rounds (delegation : Delegation) (members : List Member) (deadline : Deadline)
    (input : String) : (left round : Nat) → (replies : List (String × Message)) →
    Routine Scene (List (String × Message))
  | 0, _, replies => pure replies
  | left + 1, round, replies => do
    if ← Run.beginRound deadline round then
      let calls ← Run.dispatchRound deadline (plan delegation members input round)
      Run.endRound round
      rounds delegation members deadline input left (round + 1)
        (replies ++ calls.filterMap (·.response?))
    else
      return replies

/-- A run of a supervisor. -/
def run (options : SupervisorOptions) (maxRounds : Nat) (members : List Member)
    (deadline : Deadline) (input : String) : Routine Scene String := do
  let replies ← rounds options.delegation members deadline input maxRounds 0 []
  return aggregate options.aggregation replies

end Ensemble.Supervisor
