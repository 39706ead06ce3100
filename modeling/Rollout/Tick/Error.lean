import Rollout.Deployment.Phase
import Rollout.Scheduler.Basic

/-!
# Failures of a tick

Every failure of a tick is classified. Violations of the rollout's own rules and refusals by
the scheduler have a message that is stored on the deployment as it is; the messages of all
others would give internals away, so a fixed sentence is stored in their place.
-/

namespace Rollout

/-- An action does not fit the state of the deployment. -/
inductive Violation where
  | wrongPhase (action : String) (phase : Phase)
  | capExceedsTarget (cap target : UInt32)
  | noCanary
  | notConverged (live target : UInt32)
  deriving DecidableEq, Repr

/-- The violation in words. -/
def Violation.message : Violation → String
  | .wrongPhase action phase => "Cannot " ++ action ++ " deployment in state " ++ phase.name
  | .capExceedsTarget cap target =>
    "Canary instance target " ++ Text.decimal cap.toNat ++ " exceeds target instance count " ++
      Text.decimal target.toNat
  | .noCanary => "Deployment has no canary configured"
  | .notConverged live target =>
    "Cannot finalize deployment with " ++ Text.decimal live.toNat ++ " of " ++
      Text.decimal target.toNat ++ " instances deployed"

/-- Why a tick failed. -/
inductive TickError where
  | violation (violation : Violation)
  | scheduler (error : SchedulerError)
  | store (error : StoreError)
  | notFound (id : String)
  deriving DecidableEq, Repr

/-- Whether the message of a failure may be stored, or a fixed sentence stands for it. -/
inductive ErrorClass where
  | domain
  | internal
  deriving DecidableEq, Repr

/-- The name of a class in the log. -/
def ErrorClass.name : ErrorClass → String
  | .domain => "Domain"
  | .internal => "Internal"

namespace TickError

/-- The failure in words. -/
def message : TickError → String
  | .violation v => v.message
  | .scheduler e => e.message
  | .store e => "state store error: " ++ e.message
  | .notFound id => "deployment not found: " ++ id

/-- The class of a failure. -/
def classify : TickError → ErrorClass
  | .violation _ | .scheduler (.rejected _) => .domain
  | _ => .internal

/-- What is stored in place of a message that must not be shown. -/
def unexpected : String :=
  "An unexpected error has occurred."

/-- The text that a failure leaves on the deployment. -/
def persisted (e : TickError) : String :=
  match e.classify with
  | .domain => e.message
  | .internal => unexpected

/-- Whether the command was refused outright because of the deployment's phase. -/
def isRefusal : TickError → Bool
  | .violation (.wrongPhase ..) => true
  | _ => false

/-- The short name of a failure in the log. -/
def kind : TickError → String
  | .violation (.wrongPhase ..) => "InvalidPhase"
  | .violation (.capExceedsTarget ..) => "CapExceedsTarget"
  | .violation .noCanary => "CanaryNotConfigured"
  | .violation (.notConverged ..) => "NotConverged"
  | .scheduler (.rejected _) => "SchedulerRejected"
  | .scheduler (.unavailable _) => "SchedulerUnavailable"
  | .scheduler (.store _) => "SchedulerState"
  | .store (.conflict ..) => "RevisionConflict"
  | .store _ => "StateStore"
  | .notFound _ => "NotFound"

end TickError

end Rollout
