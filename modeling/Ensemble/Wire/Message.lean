import Ensemble.Consensus
import Ensemble.Message
import Ensemble.Wire.Fields

/-!
# Messages and votes as JSON

Messages, the candidates of a vote and its outcome, each as an object of its fields.
-/

namespace Ensemble.Wire

/-- A message; a recipient and metadata are written only if there are any. -/
def message (m : Message) : Json :=
  object [always "from" m.sender, ifPresent "to" .str m.recipient, always "content" m.content,
    ifPresent "metadata" Metadata.toJson m.metadata]

/-- The message that a JSON value describes. -/
def message? (v : Json) : Option Message := do
  let f ← record? ["from", "to", "content", "metadata"] v
  let sender ← required f "from" text?
  let recipient ← optional f "to" text?
  let content ← required f "content" text?
  let metadata ← optional f "metadata" metadata?
  some ⟨sender, recipient, content, metadata⟩

/-- A candidate of a vote. -/
def candidate (c : Candidate) : Json :=
  object [always "id" c.id, always "output" c.output]

/-- The candidate that a JSON value describes. -/
def candidate? (v : Json) : Option Candidate := do
  let f ← record? ["id", "output"] v
  let id ← required f "id" text?
  let output ← required f "output" text?
  some ⟨id, output⟩

/-- The outcome of a vote, the scores by candidate. -/
def consensus (c : Consensus) : Json :=
  object [always "winner_id" c.winnerId, always "winner_output" c.winnerOutput,
    always "scores" (mapping .float c.scores), always "reasoning" c.reasoning]

/-- The outcome that a JSON value describes. -/
def consensus? (v : Json) : Option Consensus := do
  let f ← record? ["winner_id", "winner_output", "scores", "reasoning"] v
  let winnerId ← required f "winner_id" text?
  let winnerOutput ← required f "winner_output" text?
  let scores ← required f "scores" (mapping? float?)
  let reasoning ← required f "reasoning" text?
  some { winnerId, winnerOutput, scores, reasoning }

end Ensemble.Wire
