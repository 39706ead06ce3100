import Rollout.Pass

/-!
# Access to the database

Only one process can have the database open. The daemon opens it for each pass and releases
it afterwards; operator commands wait for a while until it is free.
-/

namespace Rollout

variable {m : Type → Type} [Monad m]

/-- Milliseconds between two attempts to open the database. -/
def retryDelay : Nat :=
  50

/-- Tries to open a store until it is no longer in use, for `wait` milliseconds of which
`elapsed` have gone by. -/
def openWhenFree {α : Type} (attempt : m (Except StoreError α)) (pause : Nat → m Unit)
    (wait : Nat) (elapsed : Nat) : m (Except StoreError α) := do
  match ← attempt with
  | .error (.busy path) =>
    if elapsed < wait then
      pause retryDelay
      openWhenFree attempt pause wait (elapsed + retryDelay)
    else return .error (.busy path)
  | result => return result
termination_by wait - elapsed
decreasing_by simp only [retryDelay]; omega

/-- A pass over a store that is opened for it and released afterwards. -/
def passBetween (openStore : m (Except StoreError Store)) (closeStore : Store → m Unit)
    (pass : Store → m (PassReport × Store)) : m PassReport := do
  match ← openStore with
  | .error e => return .ofOpenError e
  | .ok store =>
    let (report, store) ← pass store
    closeStore store
    return report

end Rollout
