import Rollout.Deployment.Basic
import Rollout.Json.Parser
import Rollout.Json.Printer

/-!
# Deployments as records

The stored form of deployments, canary gates and requests. Members that may be null may also
be left out.
-/

namespace Rollout

namespace Canary

/-- A canary gate as a record. -/
def toJson (c : Canary) : Json :=
  .record [
    ("total_instances", .natural c.totalInstances.toNat),
    ("current_instance_target", .natural c.currentInstanceTarget.toNat)]

/-- Reads a canary gate. -/
def ofJson? (json : Json) : Option Canary := do
  let r ← Json.Record.ofJson? 2 json
  return {
    totalInstances := ← r.required 0 "total_instances" Json.count?
    currentInstanceTarget := ← r.required 1 "current_instance_target" Json.count? }

end Canary

namespace Request

/-- A request as a record. -/
def toJson (q : Request) : Json :=
  .record [
    ("id", .text q.id),
    ("app_id", .text q.appId),
    ("version", .text q.version),
    ("previous_version", .text q.previousVersion),
    ("original_instances", .natural q.originalInstances.toNat),
    ("desired_web_instances", .natural q.desiredWebInstances.toNat),
    ("canary_total_instances", .nullable (fun n => .natural n.toNat) q.canaryTotalInstances)]

/-- Reads a request. -/
def ofJson? (json : Json) : Option Request := do
  let r ← Json.Record.ofJson? 7 json
  return {
    id := ← r.required 0 "id" Json.text?
    appId := ← r.required 1 "app_id" Json.text?
    version := ← r.required 2 "version" Json.text?
    previousVersion := ← r.required 3 "previous_version" Json.text?
    originalInstances := ← r.required 4 "original_instances" Json.count?
    desiredWebInstances := ← r.required 5 "desired_web_instances" Json.count?
    canaryTotalInstances := ← r.optional 6 "canary_total_instances" Json.count? }

end Request

namespace Deployment

/-- A deployment as a record. -/
def toJson (d : Deployment) : Json :=
  .record [
    ("id", .text d.id),
    ("app_id", .text d.appId),
    ("version", .text d.version),
    ("previous_version", .text d.previousVersion),
    ("original_instances", .natural d.originalInstances.toNat),
    ("desired_web_instances", .natural d.desiredWebInstances.toNat),
    ("canary", .nullable Canary.toJson d.canary),
    ("deploying_instances", .natural d.deployingInstances.toNat),
    ("stable_instances", .natural d.stableInstances.toNat),
    ("phase", d.phase.toJson),
    ("status_value", d.statusValue.toJson),
    ("status_reason", d.statusReason.toJson),
    ("last_healthy_at", .nullable (fun t => .natural t.toNat) d.lastHealthyAt),
    ("error", .nullable .text d.error),
    ("revision", .natural d.revision.toNat),
    ("created_at", .natural d.createdAt.toNat),
    ("updated_at", .natural d.updatedAt.toNat)]

/-- Reads a deployment. -/
def ofJson? (json : Json) : Option Deployment := do
  let r ← Json.Record.ofJson? 17 json
  return {
    id := ← r.required 0 "id" Json.text?
    appId := ← r.required 1 "app_id" Json.text?
    version := ← r.required 2 "version" Json.text?
    previousVersion := ← r.required 3 "previous_version" Json.text?
    originalInstances := ← r.required 4 "original_instances" Json.count?
    desiredWebInstances := ← r.required 5 "desired_web_instances" Json.count?
    canary := ← r.optional 6 "canary" Canary.ofJson?
    deployingInstances := ← r.required 7 "deploying_instances" Json.count?
    stableInstances := ← r.required 8 "stable_instances" Json.count?
    phase := ← r.required 9 "phase" Phase.ofJson?
    statusValue := ← r.required 10 "status_value" StatusValue.ofJson?
    statusReason := ← r.required 11 "status_reason" StatusReason.ofJson?
    lastHealthyAt := ← r.optional 12 "last_healthy_at" Json.word?
    error := ← r.optional 13 "error" Json.text?
    revision := ← r.required 14 "revision" Json.word?
    createdAt := ← r.required 15 "created_at" Json.word?
    updatedAt := ← r.required 16 "updated_at" Json.word? }

/-- The text under which a deployment is stored. -/
def toText (d : Deployment) : String :=
  d.toJson.compact

/-- The deployment that a stored text holds. -/
def ofText? (s : String) : Option Deployment :=
  (Json.parse? s).bind ofJson?

end Deployment

end Rollout
