import Rollout.Store.Error

/-!
# The scheduler seam

A rollout never starts or stops instances itself. It asks a scheduler for the health of a
version, for a number of instances of a version, or for the removal of a version. A scheduler
acts on a world of its own choice, which may include the store.
-/

namespace Rollout

/-- The counts that are reported for a version. -/
structure Health where
  /-- Instances that have started and run. -/
  running : UInt32
  /-- Running instances that pass their health check. -/
  healthy : UInt32
  deriving DecidableEq, Repr

/-- Whether at least so many instances are running and healthy. -/
def Health.covers (health : Health) (expected : UInt32) : Bool :=
  expected ≤ health.running && expected ≤ health.healthy

/-- Why a scheduler call failed. -/
inductive SchedulerError where
  /-- The request was refused for a reason that may be shown to users. -/
  | rejected (reason : String)
  | unavailable (detail : String)
  /-- The scheduler's own record keeping failed. -/
  | store (error : StoreError)
  deriving DecidableEq, Repr

/-- The error in words. -/
def SchedulerError.message : SchedulerError → String
  | .rejected reason => reason
  | .unavailable detail => "scheduler unavailable: " ++ detail
  | .store error => "state store error: " ++ error.message

/-- A call to the scheduler, for one version of an application. -/
inductive Call where
  /-- How many instances are running and healthy? -/
  | query (appId version : String)
  /-- Let there be exactly so many instances. -/
  | setCount (appId version : String) (count : UInt32)
  /-- Stop and forget every instance. -/
  | remove (appId version : String)
  deriving DecidableEq, Repr

/-- What a call is answered with when it succeeds; a removal reports how many there were. -/
@[reducible] def Call.Answer : Call → Type
  | .query .. => Health
  | .setCount .. => Unit
  | .remove .. => UInt32

/-- A scheduler answers calls, or fails, and may change its world by that. -/
def Scheduler (World : Type) : Type :=
  (call : Call) → World → Except SchedulerError call.Answer × World

/-- A program that makes scheduler calls one after another, each with what follows upon its
answer, and then has a result. -/
inductive Plan (α : Type) : Type where
  | done (result : α)
  | call (call : Call) (next : Except SchedulerError call.Answer → Plan α)

namespace Plan

variable {α β World : Type}

/-- Goes on with what a function makes of the result. -/
def bind : Plan α → (α → Plan β) → Plan β
  | .done a, f => f a
  | .call c next, f => .call c fun answer => (next answer).bind f

/-- Carries a plan out with a scheduler. -/
def run (scheduler : Scheduler World) : Plan α → World → α × World
  | .done a, world => (a, world)
  | .call c next, world =>
    let (answer, world) := scheduler c world
    (next answer).run scheduler world

/-- A plan that is done leaves the world. -/
@[simp] theorem run_done (scheduler : Scheduler World) (a : α) (world : World) :
    (Plan.done a).run scheduler world = (a, world) :=
  rfl

/-- A plan that calls goes on with the answer, in the world that the call has left. -/
@[simp] theorem run_call (scheduler : Scheduler World) (c : Call)
    (next : Except SchedulerError c.Answer → Plan α) (world : World) :
    (Plan.call c next).run scheduler world =
      (next (scheduler c world).1).run scheduler (scheduler c world).2 :=
  rfl

/-- Carrying out a plan and what follows it is doing one after the other. -/
theorem run_bind (scheduler : Scheduler World) (plan : Plan α) (f : α → Plan β) (world : World) :
    (plan.bind f).run scheduler world =
      (f (plan.run scheduler world).1).run scheduler (plan.run scheduler world).2 := by
  induction plan generalizing world with
  | done a => rfl
  | call c next ih => simpa only [bind, run_call] using ih _ _

end Plan

end Rollout
