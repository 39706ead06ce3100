import Rollout.Deployment.Phase
import Rollout.Text.Blank
import Rollout.Text.Numeral

/-!
# Deployments

A deployment tracks one rollout of a new version of an application over the instances of the
version that runs now. It begins as a request, which is checked once; from then on only ticks
and two operator requests change it.
-/

namespace Rollout

/-- The gate of a canary: how many new instances it runs up to, and how many of them are
permitted so far. -/
structure Canary where
  totalInstances : UInt32
  currentInstanceTarget : UInt32
  deriving DecidableEq, Repr

/-- A tracked rollout of a new version. -/
structure Deployment where
  id : String
  /-- The application whose version is replaced. -/
  appId : String
  /-- The version being rolled out. -/
  version : String
  /-- The version being replaced, here called stable. -/
  previousVersion : String
  /-- How many stable instances there were when the rollout began. -/
  originalInstances : UInt32
  /-- How many new instances there are to be when it ends. -/
  desiredWebInstances : UInt32
  /-- The canary gate, until its promotion. -/
  canary : Option Canary
  /-- How many new instances are asked for now. -/
  deployingInstances : UInt32
  /-- How many stable instances are asked for now. -/
  stableInstances : UInt32
  phase : Phase
  statusValue : StatusValue
  statusReason : StatusReason
  /-- When the canary last converged, in Unix seconds. -/
  lastHealthyAt : Option UInt64
  /-- The latest failure of a tick. -/
  error : Option String
  /-- The number of committed writes. -/
  revision : UInt64
  createdAt : UInt64
  updatedAt : UInt64
  deriving DecidableEq, Repr

/-- What is asked for when a rollout is to begin. -/
structure Request where
  id : String
  appId : String
  version : String
  previousVersion : String
  originalInstances : UInt32
  desiredWebInstances : UInt32
  canaryTotalInstances : Option UInt32
  deriving DecidableEq, Repr

/-- Why a request is refused. -/
inductive Request.Fault where
  | blankId
  | blankApp
  | sameVersion (version : String)
  | emptyCanary
  | oversizedCanary (total desired : UInt32)
  deriving DecidableEq, Repr

/-- The fault in words. -/
def Request.Fault.message : Request.Fault → String
  | .blankId => "id must not be empty"
  | .blankApp => "app_id must not be empty"
  | .sameVersion version => "version " ++ version ++ " is already the stable version"
  | .emptyCanary => "canary must run at least one instance"
  | .oversizedCanary total desired =>
    "canary instances (" ++ Text.decimal total.toNat ++ ") exceed desired web instances (" ++
      Text.decimal desired.toNat ++ ")"

/-- The fault of the canary that a request asks for. -/
def Request.canaryFault? (request : Request) : Option Fault :=
  match request.canaryTotalInstances with
  | none => none
  | some total =>
    if total = 0 then some .emptyCanary
    else if request.desiredWebInstances < total then
      some (.oversizedCanary total request.desiredWebInstances)
    else none

/-- The first fault of a request: the names come before the versions, and these before the
canary. -/
def Request.fault? (request : Request) : Option Fault :=
  if Text.allBlank request.id then some .blankId
  else if Text.allBlank request.appId then some .blankApp
  else if request.version = request.previousVersion then some (.sameVersion request.version)
  else request.canaryFault?

namespace Deployment

/-- The record of a rollout that begins now. -/
def begin (request : Request) (now : UInt64) : Deployment where
  id := request.id
  appId := request.appId
  version := request.version
  previousVersion := request.previousVersion
  originalInstances := request.originalInstances
  desiredWebInstances := request.desiredWebInstances
  canary := request.canaryTotalInstances.map fun total =>
    { totalInstances := total, currentInstanceTarget := 0 }
  deployingInstances := 0
  stableInstances := request.originalInstances
  phase := .deploying
  statusValue := .active
  statusReason := .deploying
  lastHealthyAt := none
  error := none
  revision := 0
  createdAt := now
  updatedAt := now

/-- The record that a request gives rise to, unless the request has a fault. -/
def new (request : Request) (now : UInt64) : Except Request.Fault Deployment :=
  match request.fault? with
  | some fault => .error fault
  | none => .ok (begin request now)

/-- Moves to a phase, and the status with it. -/
def setPhase (d : Deployment) (phase : Phase) : Deployment :=
  { d with phase := phase, statusValue := phase.statusValue, statusReason := phase.statusReason }

/-- Asks for the rollout to be reverted. A deployment in a terminal phase refuses, which is
`none`. -/
def requestCancel? (d : Deployment) : Option Deployment :=
  if d.phase.isTerminal then none else some (d.setPhase .canceling)

/-- Releases a paused canary into the full rollout. A deployment that is not paused refuses. -/
def promote? (d : Deployment) : Option Deployment :=
  if d.phase = .paused then some ({ d with canary := none }.setPhase .deploying) else none

end Deployment

end Rollout
