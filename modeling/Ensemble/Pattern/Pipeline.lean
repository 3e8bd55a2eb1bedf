import Ensemble.Run.State

/-!
# Pipeline

Participants work one after another: each gets the reply of the last one that succeeded. Every step
is a round of its own, and a failing step is tried again, passed over or fatal as the options say.
-/

namespace Ensemble.Pipeline

/-- How often a step is tried at most; the count of attempts has 32 bits. -/
def attempts (o : PipelineOptions) : Nat :=
  match o.errorStrategy with
  | .retry => min (o.retryCount.toNat + 1) (UInt32.size - 1)
  | _ => 1

/-- Whether the chain goes on behind a step of which all attempts have failed. -/
def passesFailure (o : PipelineOptions) : Bool :=
  match o.errorStrategy with
  | .stop => false
  | .skip => true
  | .retry => o.retryFallback = .skip

/-- How a step came out. -/
inductive StepOutcome where
  | produced (content : String)
  | failed
  | stopped

/-- The message of an attempt at a step. -/
def request (sender content : String) (step attempt : Nat) (m : Member) : Message :=
  (((Message.plain sender content).addressedTo m.id).withMetadata "step" (.nat step)
    ).withMetadata "attempt" (.nat attempt)

/-- Up to `left` attempts at a step, numbered from `attempt` on. -/
def tryStep (deadline : Deadline) (sender content : String) (step : Nat) (m : Member) :
    (left attempt : Nat) → Routine Scene StepOutcome
  | 0, _ => pure .failed
  | left + 1, attempt => do
    match ← Run.call deadline m (request sender content step attempt m) with
    | .response reply => return .produced reply.content
    | .skipped => return .stopped
    | .failed _ => tryStep deadline sender content step m left (attempt + 1)

/-- The steps of the participants given, numbered from `step` on, with the content that the first
of them gets and who it is from; the content at the end. -/
def steps (o : PipelineOptions) (deadline : Deadline) :
    (members : List Member) → (step : Nat) → (sender content : String) → Routine Scene String
  | [], _, _, content => pure content
  | m :: rest, step, sender, content => do
    if ← Run.beginRound deadline step then
      let outcome ← tryStep deadline sender content step m (attempts o) 0
      Run.endRound step
      match outcome with
      | .produced reply => steps o deadline rest (step + 1) m.id reply
      | .stopped => return content
      | .failed =>
        if passesFailure o then steps o deadline rest (step + 1) sender content
        else return content
    else
      return content

/-- A run of a pipeline. -/
def run (options : PipelineOptions) (members : List Member) (deadline : Deadline)
    (input : String) : Routine Scene String :=
  steps options deadline members 0 orchestratorName input

end Ensemble.Pipeline
