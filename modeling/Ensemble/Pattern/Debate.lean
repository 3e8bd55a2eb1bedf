import Ensemble.Consensus
import Ensemble.Run.State

/-!
# Debate

Everyone but the judge argues in rounds, each round in answer to the attributed replies of the last
one that was answered. The verdict is the judge's, the majority's or the common one, and what was
said last where there is none.
-/

namespace Ensemble.Debate

/-- The participants that argue. -/
def debaters (o : DebateOptions) (members : List Member) : List Member :=
  members.filter fun m => o.judge ≠ some m.id

/-- The participant that judges. -/
def judge? (o : DebateOptions) (members : List Member) : Option Member :=
  members.find? fun m => o.judge = some m.id

/-- The message that asks a debater in a round. -/
def request (context : String) (round : Nat) (m : Member) : Dispatch :=
  ⟨m, (((Message.plain orchestratorName context).addressedTo m.id).withMetadata "round" (.nat round)
    ).withMetadata "phase" "argument"⟩

/-- The message that asks the judge. -/
def verdictRequest (context : String) (judge : Member) : Message :=
  ((Message.plain orchestratorName context).addressedTo judge.id).withMetadata "phase" "verdict"

/-- What the next round answers: the replies, or what it was before if nobody replied. -/
def nextContext (context : String) (replies : List (String × Message)) : String :=
  if replies.isEmpty then context else joinAttributed replies

/-- Up to `left` rounds from `round` on, with the context that the first of them answers and the
replies of the round before them; the context and the replies at the end. -/
def rounds (arguing : List Member) (deadline : Deadline) :
    (left round : Nat) → (context : String) → (last : List (String × Message)) →
    Routine Scene (String × List (String × Message))
  | 0, _, context, last => pure (context, last)
  | left + 1, round, context, last => do
    if ← Run.beginRound deadline round then
      let calls ← Run.dispatchRound deadline (arguing.map (request context round))
      Run.endRound round
      let replies := calls.filterMap (·.response?)
      rounds arguing deadline left (round + 1) (nextContext context replies) replies
    else
      return (context, last)

/-- The most frequent reply, compared without the white space at its ends. -/
def majority? (replies : List (String × Message)) : Option String :=
  match Consensus.evaluate (replies.map fun r => ⟨r.1, r.2.content⟩) with
  | .ok c => some c.winnerOutput
  | .error _ => none

/-- The common reply of all debaters. -/
def unanimous? (replies : List (String × Message)) (debaters : Nat) : Option String :=
  match replies with
  | [] => none
  | (_, first) :: _ =>
    if replies.length = debaters ∧ replies.all (fun r => r.2.content == first.content) then
      some first.content
    else none

/-- The judge's verdict on the context, or the context itself if there is none. -/
def judgeVerdict (judge : Option Member) (deadline : Deadline) (context : String) :
    Routine Scene String :=
  match judge with
  | none => pure context
  | some judge => do
    match ← Run.call deadline judge (verdictRequest context judge) with
    | .response verdict => return verdict.content
    | _ => return context

/-- A run of a debate. -/
def run (options : DebateOptions) (members : List Member) (deadline : Deadline)
    (input : String) : Routine Scene String := do
  let arguing := debaters options members
  let (context, last) ← rounds arguing deadline options.rounds.toNat 0 input []
  match options.voting with
  | .judge => judgeVerdict (judge? options members) deadline context
  | .majority => return (majority? last).getD context
  | .unanimous => return (unanimous? last arguing.length).getD context

end Ensemble.Debate
