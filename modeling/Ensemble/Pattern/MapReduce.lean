import Ensemble.Run.State

/-!
# Map and reduce

The input is split into pieces, the pieces go to the participants in turn, all at once or at most
so many at a time, and the successful replies are reduced to one message, exactly once.
-/

namespace Ensemble.MapReduce

/-- The functions and the limit of a map-reduce run. -/
structure Job where
  split : String → List String
  reduce : List Message → Message
  concurrency : Option Nat

/-- The message that hands a piece to a participant. -/
def request (piece : String) (index : Nat) (m : Member) : Dispatch :=
  ⟨m, (((Message.plain orchestratorName piece).addressedTo m.id).withMetadata "chunk_index"
    (.nat index)).withMetadata "phase" "map"⟩

/-- The planned call for a piece, if there is a participant to take it. -/
def request? (members : List Member) (piece : String) (index : Nat) : Option Dispatch :=
  (members[index % members.length]?).map (request piece index)

theorem request?_eq {members : List Member} {m : Member} {index : Nat} (piece : String)
    (h : members[index % members.length]? = some m) :
    request? members piece index = some (request piece index m) := by
  rw [request?, h, Option.map_some]

/-- The planned calls for all pieces: participants take turns. -/
def plan (members : List Member) (pieces : List String) : List Dispatch :=
  pieces.zipIdx.filterMap fun p => request? members p.1 p.2

/-- The successful replies to the pieces: in their order without a limit, else in the order in
which they came. -/
def mapPieces (deadline : Deadline) (concurrency : Option Nat) (calls : List Dispatch) :
    Routine Scene (List Message) := do
  let settled ← match concurrency with
    | some limit => Run.dispatchBounded deadline limit calls
    | none => Run.dispatchRound deadline calls
  return settled.filterMap (·.outcome.response?)

/-- The one round of the run. -/
def mapRound (job : Job) (members : List Member) (deadline : Deadline) (input : String) :
    Routine Scene (List Message) := do
  if ← Run.beginRound deadline 0 then
    let replies ← mapPieces deadline job.concurrency (plan members (job.split input))
    Run.endRound 0
    return replies
  else
    return []

/-- A map-reduce run. -/
def run (job : Job) (members : List Member) (deadline : Deadline) (input : String) :
    Routine Scene String := do
  let replies ← mapRound job members deadline input
  let reduced := (job.reduce replies).withMetadata "phase" "reduce"
  Run.recordMessage reduced
  return reduced.content

end Ensemble.MapReduce
