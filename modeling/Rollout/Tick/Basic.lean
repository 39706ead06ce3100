import Rollout.Store.Basic
import Rollout.Tick.Action
import Rollout.Tick.Command

/-!
# Ticks

A tick reads the record of a deployment, carries out its command on a copy and writes the copy
back, provided that nobody else has written the record in between. A failure never leaves the
tick: it is stored on the record as it then stands, and reported.
-/

namespace Rollout

/-- What a tick is run with: the step policy, and the time. The clock stands still during a tick: a
pause, the write of the record and the note of a failure each have a time of their own, and here
they have the same. -/
structure Updater where
  policy : StepPolicy
  now : UInt64
  deriving DecidableEq, Repr

namespace Updater

/-- A scale tick: one step toward the desired count, and the end of the rollout once it is
reached. -/
def scale (u : Updater) : Action Unit := fun d =>
  if d.phase.isInProgress then
    let goal : ScaleGoal := { target := d.desiredWebInstances, cap := none }
    Action.andThen (scaleStep u.policy goal (d.setPhase .deploying)) fun d step =>
      if step.finished then Action.andThen (finalize d) fun d _ => Action.finish d ()
      else Action.finish d ()
  else Action.fail d (.violation (.wrongPhase "scale" d.phase))

/-- What a canary tick does after its scale step: it pauses a converged canary, and permits
more instances to one that has come up to its target. -/
def afterCanaryStep (u : Updater) (canary : Canary) (step : ScaleStep) (d : Deployment) :
    Deployment :=
  if step.finished then { d with lastHealthyAt := some u.now }.setPhase .paused
  else if step.atCap then
    let remaining := canary.totalInstances - canary.currentInstanceTarget
    let next := min (canary.currentInstanceTarget + u.policy.step remaining) canary.totalInstances
    { d with canary := d.canary.map fun c => { c with currentInstanceTarget := next } }
  else d

/-- A canary tick: one step toward the canary total within the target permitted so far. A
paused canary is left alone. -/
def canary (u : Updater) : Action Unit := fun d =>
  if d.phase = .paused then Action.finish d ()
  else if d.phase.isInProgress then
    match d.canary with
    | none => Action.fail d (.violation .noCanary)
    | some canary =>
      let goal : ScaleGoal :=
        { target := canary.totalInstances, cap := some canary.currentInstanceTarget }
      Action.andThen (scaleStep u.policy goal (d.setPhase .deploying)) fun d step =>
        Action.finish (u.afterCanaryStep canary step d) ()
  else Action.fail d (.violation (.wrongPhase "canary" d.phase))

/-- The action of a command. -/
def action (u : Updater) : Command → Action Unit
  | .scale => u.scale
  | .canary => u.canary
  | .cancel => fun d => Action.andThen (Rollout.cancel d) fun d _ => Action.finish d ()

/-! ## Writing the outcome -/

/-- What a failed tick makes of the record. Its phase changes only while the rollout is in
progress, and not by a refusal; a failed cancel stays a cancel. -/
def withFailure (u : Updater) (command : Command) (e : TickError) (d : Deployment) : Deployment :=
  let phase : Phase :=
    match command with
    | .cancel => .canceling
    | .scale | .canary => .failed
  let d := { d with error := some e.persisted }
  let d := if !e.isRefusal && d.phase.isInProgress then d.setPhase phase else d
  { d with updatedAt := u.now }

end Updater

/-- What has become of a tick. -/
inductive TickReport where
  /-- The copy was written, as it is given here. -/
  | committed (written : Deployment)
  /-- The command changed nothing, so nothing was written. -/
  | unchanged (read : Deployment)
  /-- The tick failed; storing the failure may have failed as well. -/
  | failed (error : TickError) (unsaved : Option StoreError)
  deriving DecidableEq, Repr

namespace Updater

variable {Rest : Type}

/-- The record that a tick begins with. -/
def read (store : Store) (id : String) : Except TickError Deployment :=
  match store.deployment? id with
  | .error e => .error (.store e)
  | .ok none => .error (.notFound id)
  | .ok (some d) => .ok d

/-- Stores a failure on the deployment under an id, if there is one. -/
def recordFailure (u : Updater) (store : Store) (id : String) (command : Command)
    (e : TickError) : TickReport × Store :=
  match e with
  | .notFound _ => (.failed e none, store)
  | _ =>
    match store.update id (u.withFailure command e) with
    | .ok (_, store) => (.failed e none, store)
    | .error unsaved => (.failed e (some unsaved), store)

/-- Writes the outcome of a tick that began with a record. -/
def settle (u : Updater) (store : Store) (id : String) (command : Command)
    (before : Deployment) : Outcome Unit → TickReport × Store
  | (_, .error e) => u.recordFailure store id command e
  | (d, .ok ()) =>
    if d = before then (.unchanged d, store)
    else
      match store.commit { d with updatedAt := u.now } before.revision with
      | .ok (written, store) => (.committed written, store)
      | .error e => u.recordFailure store id command (.store e)

/-- One tick of a command for a deployment. -/
def tick (u : Updater) (scheduler : Scheduler (Store × Rest)) (id : String) (command : Command)
    (world : Store × Rest) : TickReport × (Store × Rest) :=
  match read world.1 id with
  | .error e =>
    let (report, store) := u.recordFailure world.1 id command e
    (report, (store, world.2))
  | .ok before =>
    let (outcome, world) := (u.action command before).run scheduler world
    let (report, store) := u.settle world.1 id command before outcome
    (report, (store, world.2))

end Updater

end Rollout
