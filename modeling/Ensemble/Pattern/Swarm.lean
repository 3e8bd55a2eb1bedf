import Ensemble.Run.State

/-!
# Swarm

Peers work in rounds over a shared blackboard. Each round everyone gets the replies of the round
before, and a copy of the blackboard as it was at the start of the round; entries are only ever
added to the blackboard. The run ends when the replies of a round have converged.
-/

namespace Ensemble.Swarm

/-- The metadata key of the copy of the blackboard. -/
def blackboardTag : String := "blackboard"

/-- The blackboard key of a participant's reply in a round. -/
def blackboardKey (id : String) (round : Nat) : String :=
  id ++ "_round_" ++ toString round

/-- The message that asks a participant in a round. -/
def request (content : String) (round : Nat) (board : Metadata) (m : Member) : Dispatch :=
  ⟨m, (((Message.plain orchestratorName content).addressedTo m.id).withMetadata "round" (.nat round)
    ).withMetadata blackboardTag board.toJson⟩

/-- Writes on the blackboard; what is there stays. -/
def post (key value : String) : Routine Scene Unit :=
  Routine.modify fun s =>
    (s.1, { s.2 with blackboard := s.2.blackboard.insertIfAbsent key (.str value) })

/-- Writes the replies of a round on the blackboard. -/
def postReplies (round : Nat) : List (String × Message) → Routine Scene Unit
  | [] => pure ()
  | (id, m) :: rest => do
    post (blackboardKey id round) m.content
    postReplies round rest

/-- Up to `left` rounds from `round` on, with the content that the first of them sends out and the
replies of the round before them; the replies of the last round that took place. -/
def rounds (converged : Option (List Message → Bool)) (members : List Member)
    (deadline : Deadline) : (left round : Nat) → (content : String) → (last : List Message) →
    Routine Scene (List Message)
  | 0, _, _, last => pure last
  | left + 1, round, content, last => do
    if ← Run.beginRound deadline round then
      let (_, state) ← Routine.get
      let calls ← Run.dispatchRound deadline
        (members.map (request content round state.blackboard))
      let replies := calls.filterMap (·.response?)
      postReplies round replies
      Run.endRound round
      if calls.all (·.outcome.isSkipped) then
        return last
      let responses := replies.map (·.2)
      if converged.any (· responses) then
        return responses
      rounds converged members deadline left (round + 1) (joinContents responses) responses
    else
      return last

/-- A run of a swarm. -/
def run (options : SwarmOptions) (maxRounds : Nat) (members : List Member) (deadline : Deadline)
    (input : String) : Routine Scene String := do
  post "input" input
  let last ← rounds options.converged members deadline maxRounds 0 input []
  return joinContents last

end Ensemble.Swarm
