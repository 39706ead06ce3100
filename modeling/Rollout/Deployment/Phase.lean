import Rollout.Json.Record

/-!
# Phases of a deployment

A deployment is in exactly one phase. Two coarser values, shown to users, follow from it.
-/

namespace Rollout

/-- Where a rollout stands. -/
inductive Phase where
  /-- Instances are being replaced, or the canary is growing. -/
  | deploying
  /-- The canary has converged and waits for its promotion. -/
  | paused
  /-- Cancellation has been asked for; the next cancel tick reverts the rollout. -/
  | canceling
  /-- The rollout is finished and the superseded instances are gone. -/
  | deployed
  /-- The rollout has been reverted to the previous version. -/
  | canceled
  /-- The last tick failed; the next one tries again. -/
  | failed
  deriving DecidableEq, Repr

/-- The coarse status shown to users. -/
inductive StatusValue where
  | active
  | finalized
  deriving DecidableEq, Repr

/-- Why a deployment has its status. -/
inductive StatusReason where
  | deploying
  | paused
  | canceling
  | deployed
  | canceled
  deriving DecidableEq, Repr

namespace Phase

/-- A terminal phase is never left. -/
def isTerminal : Phase → Bool
  | .deployed | .canceled => true
  | _ => false

/-- The phases in which scale and canary ticks may make progress. -/
def isInProgress : Phase → Bool
  | .deploying | .failed => true
  | _ => false

/-- The status value that belongs to a phase. -/
def statusValue : Phase → StatusValue
  | .deployed | .canceled => .finalized
  | _ => .active

/-- The status reason that belongs to a phase. -/
def statusReason : Phase → StatusReason
  | .deploying | .failed => .deploying
  | .paused => .paused
  | .canceling => .canceling
  | .deployed => .deployed
  | .canceled => .canceled

/-- The name of a phase, in records and messages. -/
def name : Phase → String
  | .deploying => "DEPLOYING"
  | .paused => "PAUSED"
  | .canceling => "CANCELING"
  | .deployed => "DEPLOYED"
  | .canceled => "CANCELED"
  | .failed => "FAILED"

/-- A phase as a member of a record. -/
def toJson (phase : Phase) : Json :=
  .text phase.name

/-- Reads the name of a phase. -/
def ofJson? : Json → Option Phase :=
  Json.oneOf? <| [deploying, paused, canceling, deployed, canceled, failed].map fun p => (p.name, p)

end Phase

namespace StatusValue

/-- The name of a status value in records. -/
def name : StatusValue → String
  | .active => "ACTIVE"
  | .finalized => "FINALIZED"

/-- A status value as a member of a record. -/
def toJson (value : StatusValue) : Json :=
  .text value.name

/-- Reads the name of a status value. -/
def ofJson? : Json → Option StatusValue :=
  Json.oneOf? <| [active, finalized].map fun v => (v.name, v)

end StatusValue

namespace StatusReason

/-- The name of a status reason in records. -/
def name : StatusReason → String
  | .deploying => "DEPLOYING"
  | .paused => "PAUSED"
  | .canceling => "CANCELING"
  | .deployed => "DEPLOYED"
  | .canceled => "CANCELED"

/-- A status reason as a member of a record. -/
def toJson (reason : StatusReason) : Json :=
  .text reason.name

/-- Reads the name of a status reason. -/
def ofJson? : Json → Option StatusReason :=
  Json.oneOf? <| [deploying, paused, canceling, deployed, canceled].map fun r => (r.name, r)

end StatusReason

end Rollout
