import Rollout.Deployment.Basic
import Rollout.StepPolicy
import Rollout.Tick.Error

/-!
# Actions

The steps of a rollout: scale, finalize and cancel. An action works on a copy of the record
and makes scheduler calls. It always gives the copy back, also when it fails half-way, with
what it has changed up to then.
-/

namespace Rollout

/-- What an action leaves: the copy of the record, and a result unless it failed. -/
abbrev Outcome (α : Type) : Type :=
  Deployment × Except TickError α

/-- A step that works on a copy of the record. -/
abbrev Action (α : Type) : Type :=
  Deployment → Plan (Outcome α)

namespace Action

variable {α β : Type}

/-- Ends with a result. -/
def finish (d : Deployment) (a : α) : Plan (Outcome α) :=
  .done (d, .ok a)

/-- Ends with a failure. -/
def fail (d : Deployment) (e : TickError) : Plan (Outcome α) :=
  .done (d, .error e)

/-- Makes a scheduler call and goes on with its answer; the action fails with the call. -/
def ask (d : Deployment) (c : Call) (next : c.Answer → Plan (Outcome α)) : Plan (Outcome α) :=
  .call c fun
    | .ok answer => next answer
    | .error e => fail d (.scheduler e)

/-- Goes on after an action that has not failed. -/
def andThen (plan : Plan (Outcome α)) (next : Deployment → α → Plan (Outcome β)) :
    Plan (Outcome β) :=
  plan.bind fun
    | (d, .ok a) => next d a
    | (d, .error e) => fail d e

end Action

/-! ## Scale -/

/-- What one scale step has come to. -/
structure ScaleStep where
  /-- The target is reached and healthy. -/
  finished : Bool := false
  /-- Healthy and exactly at the cap, below the target. -/
  atCap : Bool := false
  /-- Some instance count was submitted. -/
  changed : Bool := false
  deriving DecidableEq, Repr

/-- The bounds of a scale step: the count to reach, and in canary mode a cap on the way
there. -/
structure ScaleGoal where
  target : UInt32
  cap : Option UInt32
  deriving DecidableEq, Repr

namespace ScaleGoal

/-- The count that a step moves toward: the cap if there is one. -/
def limit (goal : ScaleGoal) : UInt32 :=
  goal.cap.getD goal.target

/-- A cap must not lie beyond the target. -/
def violation? (goal : ScaleGoal) : Option Violation :=
  match goal.cap with
  | some cap => if goal.target < cap then some (.capExceedsTarget cap goal.target) else none
  | none => none

end ScaleGoal

/-- How many stable instances to keep: so many that with the healthy new ones they make up the
desired number, and never more than there are. -/
def Deployment.stableGoal (d : Deployment) (health : Health) : UInt32 :=
  let replaced := min health.healthy d.deployingInstances
  let missing := if replaced ≤ d.desiredWebInstances then d.desiredWebInstances - replaced else 0
  min missing d.stableInstances

/-- The count one step closer to the limit, from below or from above. -/
def StepPolicy.toward (policy : StepPolicy) (limit current : UInt32) : UInt32 :=
  if current < limit then current + policy.step (limit - current)
  else current - policy.step (current - limit)

/-- The part of a scale step that moves the new version. -/
def scaleNew (policy : StepPolicy) (goal : ScaleGoal) (retired : Bool) :
    Action ScaleStep := fun d =>
  if d.deployingInstances = goal.target then
    Action.finish d { finished := goal.cap.isSome || d.stableInstances == 0, changed := retired }
  else if d.deployingInstances = goal.limit then
    Action.finish d { atCap := true, changed := retired }
  else
    let next := policy.toward goal.limit d.deployingInstances
    Action.ask d (.setCount d.appId d.version next) fun _ =>
      Action.finish { d with deployingInstances := next } { changed := true }

/-- One scale step. Nothing happens until the new instances asked for are healthy. Then the
stable instances that they replace are retired, and the new version moves one step. -/
def scaleStep (policy : StepPolicy) (goal : ScaleGoal) : Action ScaleStep := fun d =>
  match goal.violation? with
  | some v => Action.fail d (.violation v)
  | none =>
    Action.ask d (.query d.appId d.version) fun (health : Health) =>
      if health.covers d.deployingInstances then
        let stable := d.stableGoal health
        if stable < d.stableInstances then
          Action.ask d (.setCount d.appId d.previousVersion stable) fun _ =>
            scaleNew policy goal true { d with stableInstances := stable }
        else scaleNew policy goal false d
      else Action.finish d {}

/-! ## Finalize and cancel -/

/-- Removes the superseded version once the rollout has converged. -/
def finalize : Action Bool := fun d =>
  if d.phase.isInProgress then
    if d.deployingInstances = d.desiredWebInstances then
      Action.ask d (.remove d.appId d.previousVersion) fun _ =>
        Action.finish ({ d with stableInstances := 0 }.setPhase .deployed) true
    else Action.fail d (.violation (.notConverged d.deployingInstances d.desiredWebInstances))
  else Action.fail d (.violation (.wrongPhase "finalize" d.phase))

/-- Restores the stable instances and then removes the new ones. A second cancel does
nothing. -/
def cancel : Action Bool := fun d =>
  match d.phase with
  | .canceled => Action.finish d true
  | .deployed => Action.fail d (.violation (.wrongPhase "cancel" d.phase))
  | _ =>
    Action.ask d (.setCount d.appId d.previousVersion d.originalInstances) fun _ =>
      Action.ask d (.remove d.appId d.version) fun _ =>
        Action.finish
          ({ d with
              deployingInstances := 0
              stableInstances := d.originalInstances }.setPhase .canceled) true

end Rollout
