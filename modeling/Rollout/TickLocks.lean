/-!
# Tick locks

Two ticks of one deployment must never overlap, so each holds the lock of its deployment.
There is one lock for every deployment that was ever asked for; requests for it are granted in
the order in which they were made, and locks of different deployments do not concern one
another.
-/

namespace Rollout

/-- A request for the lock of a deployment, under a name that tells it apart. -/
structure LockRequest where
  name : String
  id : String
  deriving DecidableEq, Repr

/-- The locks: who was ever asked for, the requests granted, and those that wait in the order
in which they were made. -/
structure TickLocks where
  ids : List String
  held : List LockRequest
  waiting : List LockRequest
  deriving DecidableEq, Repr

namespace TickLocks

/-- No lock was ever asked for. -/
def empty : TickLocks :=
  ⟨[], [], []⟩

/-- There are locks that nobody holds. -/
instance : Inhabited TickLocks :=
  ⟨empty⟩

/-- Looks at waiting requests in their order and grants each whose lock is free by then. -/
def grant (held : List LockRequest) : List LockRequest → List LockRequest × List LockRequest
  | [] => (held, [])
  | request :: rest =>
    if held.any (·.id = request.id) then
      let (held, waiting) := grant held rest
      (held, request :: waiting)
    else grant (held ++ [request]) rest

/-- Grants what can be granted. -/
def settle (locks : TickLocks) : TickLocks :=
  let (held, waiting) := grant locks.held locks.waiting
  { locks with held := held, waiting := waiting }

/-- Asks for the lock of a deployment. -/
def acquire (locks : TickLocks) (request : LockRequest) : TickLocks :=
  settle {
    locks with
    ids := if request.id ∈ locks.ids then locks.ids else locks.ids ++ [request.id]
    waiting := locks.waiting ++ [request] }

/-- Gives up what a name holds or waits for. -/
def release (locks : TickLocks) (name : String) : TickLocks :=
  settle {
    locks with
    held := locks.held.filter (·.name ≠ name)
    waiting := locks.waiting.filter (·.name ≠ name) }

/-- How many deployments have a lock. -/
def size (locks : TickLocks) : Nat :=
  locks.ids.length

/-- The names that hold a lock, sorted. -/
def heldNames (locks : TickLocks) : List String :=
  (locks.held.map LockRequest.name).mergeSort fun a b => !decide (b < a)

/-- The names that wait, in the order of their requests. -/
def waitingNames (locks : TickLocks) : List String :=
  locks.waiting.map LockRequest.name

end TickLocks

end Rollout
