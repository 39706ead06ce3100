import Rollout.Log

/-!
# Driver passes

A pass lists all deployments and ticks each one whose phase calls for a command, in the order
of the list. The commands are chosen before the first tick. A pass that cannot open or list
the store ticks nothing.
-/

namespace Rollout

/-- A tick that a pass has made. -/
structure PassTick where
  id : String
  command : Command
  report : TickReport
  deriving DecidableEq, Repr

/-- What has become of a pass. -/
inductive PassReport where
  /-- Someone else held the store. -/
  | skipped
  | unopened (error : StoreError)
  | unlisted (error : StoreError)
  | ticked (ticks : List PassTick)
  deriving DecidableEq, Repr

namespace PassReport

/-- The report of a pass whose store could not be opened. -/
def ofOpenError : StoreError → PassReport
  | .busy _ => .skipped
  | e => .unopened e

/-- How many deployments a pass has ticked. -/
def count : PassReport → Nat
  | .ticked ticks => ticks.length
  | _ => 0

/-- What the log says about a pass. A store in use is nothing to report. -/
def events : PassReport → List LogEvent
  | .skipped => []
  | .unopened e =>
    [{ level := .warn, message := "failed to open state store", fields := [("error", e.message)] }]
  | .unlisted e =>
    [{ level := .error, message := "failed to list deployments", fields := [("error", e.message)] }]
  | .ticked ticks => ticks.flatMap fun t => t.report.events t.id t.command

end PassReport

namespace Updater

variable {Rest : Type}

/-- The ticks that a pass makes for a list of deployments. -/
def chosen (deployments : List Deployment) : List (String × Command) :=
  deployments.filterMap fun d => d.command?.map fun command => (d.id, command)

/-- Makes ticks one after another. -/
def ticks (u : Updater) (scheduler : Scheduler (Store × Rest)) :
    List (String × Command) → Store × Rest → List PassTick × (Store × Rest)
  | [], world => ([], world)
  | (id, command) :: rest, world =>
    let (report, world) := u.tick scheduler id command world
    let (made, world) := u.ticks scheduler rest world
    (⟨id, command, report⟩ :: made, world)

/-- One pass over an open store. -/
def pass (u : Updater) (scheduler : Scheduler (Store × Rest)) (world : Store × Rest) :
    PassReport × (Store × Rest) :=
  match world.1.deploymentList with
  | .error e => (.unlisted e, world)
  | .ok deployments =>
    let (made, world) := u.ticks scheduler (chosen deployments) world
    (.ticked made, world)

end Updater

end Rollout
