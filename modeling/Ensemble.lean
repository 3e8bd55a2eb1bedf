import Ensemble.Network.Rules
import Ensemble.Participant.Script
import Ensemble.Options.Describe
import Ensemble.Options.Functions
import Ensemble.Options.Template
import Ensemble.Json.Reader
import Ensemble.Wire.Event
import Ensemble.Wire.Network
import Ensemble.Wire.Options
import Ensemble.Wire.Settings
import Ensemble.Wire.Template
import Ensemble.Settings.Load
import Ensemble.Proofs.Stream.Observation
import Ensemble.Proofs.Stream.Stopping
import Ensemble.Proofs.Pairing.Basic
import Ensemble.Proofs.Pairing.Patterns
import Ensemble.Proofs.Pairing.Lockstep
import Ensemble.Proofs.Stream.Straight
import Ensemble.Proofs.Timing.Truncation
import Ensemble.Proofs.Run.Idle
import Ensemble.Proofs.Stream.Permanence
import Ensemble.Proofs.Participant.Answer
import Ensemble.Proofs.Routine.Line
import Ensemble.Proofs.Participant.Tally
import Ensemble.Proofs.Run.Foresight
import Ensemble.Proofs.Timing.Bounded
import Ensemble.Proofs.Pairing.Shuffle
import Ensemble.Proofs.Timing.Indifference
import Ensemble.Proofs.Routine.Parallel
import Ensemble.Proofs.Pairing.Parallel
import Ensemble.Proofs.Participant.Parallel
import Ensemble.Proofs.Isolation.Impersonation
import Ensemble.Proofs.Timing.Independence
import Ensemble.Proofs.Run.Custom
import Ensemble.Proofs.Stream.Errors
import Ensemble.Proofs.Isolation.Failure
import Ensemble.Proofs.Stream.Ending
import Ensemble.Proofs.Stream.Cancelling
import Ensemble.Proofs.Run.Rounds
import Ensemble.Proofs.Stream.Rounds
import Ensemble.Proofs.Pattern.Pipeline
import Ensemble.Proofs.Pattern.Blackboard
import Ensemble.Proofs.Pattern.Swarm
import Ensemble.Proofs.Consensus.Plurality
import Ensemble.Proofs.Routine.Slots
import Ensemble.Proofs.Run.Shifts
import Ensemble.Proofs.Run.Schedule
import Ensemble.Proofs.Pattern.MapReduce
import Ensemble.Proofs.Pattern.Supervisor
import Ensemble.Proofs.Pattern.Debate
import Ensemble.Proofs.Pattern.Verdict
import Ensemble.Proofs.Consensus.Vote
import Ensemble.Proofs.Pattern.Reduction
import Ensemble.Proofs.Routine.Prompt
import Ensemble.Proofs.Run.Timetable
import Ensemble.Proofs.Run.Hazard
import Ensemble.Proofs.Wire.Template
import Ensemble.Proofs.Wire.Event
import Ensemble.Proofs.Settings.Resolution
