import Rollout.CommandLine.Program
import Rollout.Main
import Rollout.Scheduler.Interference
import Rollout.TickLocks
import Rollout.Proofs.Agreement
import Rollout.Proofs.Availability
import Rollout.Proofs.CanaryGate
import Rollout.Proofs.CancelIntent
import Rollout.Proofs.CancelOrder
import Rollout.Proofs.ConfigText
import Rollout.Proofs.Convergence
import Rollout.Proofs.Disclosure
import Rollout.Proofs.FailedCommand
import Rollout.Proofs.FairLocks
import Rollout.Proofs.GuardedCalls
import Rollout.Proofs.IndexOrder
import Rollout.Proofs.Isolation
import Rollout.Proofs.Ledger
import Rollout.Proofs.PassOrder
import Rollout.Proofs.PhaseAutomaton
import Rollout.Proofs.RecordForms
import Rollout.Proofs.Retry
import Rollout.Proofs.RevisionChain
import Rollout.Proofs.Roster
import Rollout.Proofs.StepArithmetic
import Rollout.Proofs.StepCapacity
import Rollout.Proofs.StepCount
import Rollout.Proofs.Untroubled
