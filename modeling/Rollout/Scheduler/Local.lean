import Rollout.Scheduler.Basic
import Rollout.Store.Basic

/-!
# The local scheduler

A scheduler that keeps its instances as records in the store, so that a rollout can run
without a container scheduler behind it. Growing a version appends records after the last
one; shrinking it drops records from the end. New instances are ready at once, or wait until
they are marked ready.
-/

namespace Rollout

/-- The settings of a local scheduler, and the time that it writes into records. -/
structure LocalScheduler where
  /-- Whether new instances count as running and healthy right away. -/
  autoReady : Bool
  now : UInt64

namespace LocalScheduler

/-- The record of a new instance. -/
def fresh (s : LocalScheduler) (appId version : String) (index : UInt32) : Instance where
  appId := appId
  version := version
  index := index
  status := if s.autoReady then .running else .starting
  health := if s.autoReady then .healthy else .unknown
  startedAt := s.now
  updatedAt := s.now

/-- The index after the last instance in the list. After the highest index of all it is zero. -/
def nextIndex (existing : List Instance) : UInt32 :=
  match existing.getLast? with
  | none => 0
  | some last => last.index + 1

/-- The indexes of a number of new instances: those from the next index up to the one that lies so
far beyond it. Where that one is out of range it comes out below the next index, and there are
none. -/
def newIndexes (existing : List Instance) (added : UInt32) : List UInt32 :=
  let first := nextIndex existing
  let stop := first + added
  (List.range' first.toNat (stop.toNat - first.toNat)).map UInt32.ofNat

/-- Adds a number of new instances after the existing ones. -/
def grow (s : LocalScheduler) (store : Store) (appId version : String)
    (existing : List Instance) (added : UInt32) : Store :=
  (newIndexes existing added).foldl (fun store index =>
    store.putInstance (s.fresh appId version index)) store

/-- Removes a number of instances from the end of the existing ones. -/
def shrink (store : Store) (appId version : String) (existing : List Instance)
    (removed : Nat) : Store :=
  (existing.reverse.take removed).foldl (fun store i =>
    (store.deleteInstance appId version i.index).2) store

/-- Converges a version to a number of instances. -/
def setCount (s : LocalScheduler) (store : Store) (appId version : String) (count : UInt32) :
    Except StoreError Store := do
  let existing ← store.instanceList appId version
  let current := UInt32.ofNat existing.length
  if current < count then
    return s.grow store appId version existing (count - current)
  else
    return shrink store appId version existing (current - count).toNat

/-- How many instances of a version run, and how many of these are healthy. -/
def health (store : Store) (appId version : String) : Except StoreError Health := do
  let instances ← store.instanceList appId version
  return {
    running := UInt32.ofNat (instances.countP Instance.isRunning)
    healthy := UInt32.ofNat (instances.countP Instance.isHealthy) }

/-- How many instances of a version are recorded. -/
def instanceCount (store : Store) (appId version : String) : Except StoreError UInt32 := do
  return UInt32.ofNat (← store.instanceList appId version).length

/-- Makes every instance of a version that is not running and healthy so, and says how many
these were. -/
def markReady (s : LocalScheduler) (store : Store) (appId version : String) :
    Except StoreError (UInt32 × Store) := do
  let unready := (← store.instanceList appId version).filter (!·.isHealthy)
  return (UInt32.ofNat unready.length, unready.foldl (fun store i =>
    store.putInstance { i with status := .running, health := .healthy, updatedAt := s.now }) store)

/-- Changes the first instance of a version with an index, and says whether there is one. -/
def mark (s : LocalScheduler) (store : Store) (appId version : String) (index : UInt32)
    (change : Instance → Instance) : Except StoreError (Bool × Store) := do
  match (← store.instanceList appId version).find? (·.index = index) with
  | none => return (false, store)
  | some i => return (true, store.putInstance { change i with updatedAt := s.now })

/-- Marks an instance as failing its health check. -/
def markUnhealthy (s : LocalScheduler) (store : Store) (appId version : String)
    (index : UInt32) : Except StoreError (Bool × Store) :=
  s.mark store appId version index fun i => { i with health := .unhealthy }

/-- Marks an instance as crashed: it no longer runs and its health is unknown. -/
def markCrashed (s : LocalScheduler) (store : Store) (appId version : String)
    (index : UInt32) : Except StoreError (Bool × Store) :=
  s.mark store appId version index fun i => { i with status := .crashed, health := .unknown }

/-- The answer to a call, and the store after it. -/
def scheduler (s : LocalScheduler) : Scheduler Store
  | .query appId version, store => ((health store appId version).mapError .store, store)
  | .setCount appId version count, store =>
    match s.setCount store appId version count with
    | .ok store => (.ok (), store)
    | .error e => (.error (.store e), store)
  | .remove appId version, store =>
    let (removed, store) := store.deleteInstances appId version
    (.ok removed, store)

end LocalScheduler

/-- A scheduler of one part of a world, seen as one of the whole. -/
def Scheduler.onFirst {World Rest : Type} (s : Scheduler World) : Scheduler (World × Rest) :=
  fun call (world, rest) =>
    let (answer, world) := s call world
    (answer, (world, rest))

end Rollout
