import Rollout.Json.Parser
import Rollout.Json.Printer
import Rollout.Json.Record

/-!
# Instances

An instance of an application version, as the local scheduler keeps it. Its key consists of
the application, the version and the index, padded with zeros so that keys below a million
stand in the order of their indexes.
-/

namespace Rollout

/-- How far an instance has come. -/
inductive InstanceStatus where
  | starting
  | running
  | crashed
  deriving DecidableEq, Repr

/-- What the health check of an instance says. -/
inductive InstanceHealth where
  | healthy
  | unhealthy
  | unknown
  deriving DecidableEq, Repr

/-- One instance of an application version. -/
structure Instance where
  appId : String
  version : String
  index : UInt32
  status : InstanceStatus
  health : InstanceHealth
  startedAt : UInt64
  updatedAt : UInt64
  deriving DecidableEq, Repr

namespace InstanceStatus

/-- The name of a status in records. -/
def name : InstanceStatus → String
  | .starting => "starting"
  | .running => "running"
  | .crashed => "crashed"

/-- A status as a member of a record. -/
def toJson (status : InstanceStatus) : Json :=
  .text status.name

/-- Reads the name of a status. -/
def ofJson? : Json → Option InstanceStatus :=
  Json.oneOf? <| [starting, running, crashed].map fun s => (s.name, s)

end InstanceStatus

namespace InstanceHealth

/-- The name of a health value in records. -/
def name : InstanceHealth → String
  | .healthy => "healthy"
  | .unhealthy => "unhealthy"
  | .unknown => "unknown"

/-- A health value as a member of a record. -/
def toJson (health : InstanceHealth) : Json :=
  .text health.name

/-- Reads the name of a health value. -/
def ofJson? : Json → Option InstanceHealth :=
  Json.oneOf? <| [healthy, unhealthy, unknown].map fun h => (h.name, h)

end InstanceHealth

namespace Instance

/-- What the keys of all instances of a version begin with. -/
def keyStart (appId version : String) : String :=
  appId ++ ":" ++ version ++ ":"

/-- The key of an instance; the index has at least six digits. -/
def keyOf (appId version : String) (index : UInt32) : String :=
  keyStart appId version ++ Text.padded 6 index.toNat

/-- The key under which an instance is stored. -/
def key (i : Instance) : String :=
  keyOf i.appId i.version i.index

/-- Whether an instance runs. -/
def isRunning (i : Instance) : Bool :=
  i.status = .running

/-- Whether an instance runs and passes its health check. -/
def isHealthy (i : Instance) : Bool :=
  i.isRunning && i.health = .healthy

/-- An instance as a record. -/
def toJson (i : Instance) : Json :=
  .record [
    ("app_id", .text i.appId),
    ("version", .text i.version),
    ("index", .natural i.index.toNat),
    ("status", i.status.toJson),
    ("health", i.health.toJson),
    ("started_at", .natural i.startedAt.toNat),
    ("updated_at", .natural i.updatedAt.toNat)]

/-- Reads an instance. -/
def ofJson? (json : Json) : Option Instance := do
  let r ← Json.Record.ofJson? 7 json
  return {
    appId := ← r.required 0 "app_id" Json.text?
    version := ← r.required 1 "version" Json.text?
    index := ← r.required 2 "index" Json.count?
    status := ← r.required 3 "status" InstanceStatus.ofJson?
    health := ← r.required 4 "health" InstanceHealth.ofJson?
    startedAt := ← r.required 5 "started_at" Json.word?
    updatedAt := ← r.required 6 "updated_at" Json.word? }

/-- The text under which an instance is stored. -/
def toText (i : Instance) : String :=
  i.toJson.compact

/-- The instance that a stored text holds. -/
def ofText? (s : String) : Option Instance :=
  (Json.parse? s).bind ofJson?

end Instance

end Rollout
