import Rollout.Config
import Rollout.Operator
import Rollout.Pass
import Rollout.Scheduler.Local
import Rollout.CommandLine.Arguments

/-!
# Operations on an open store

What the subcommands do once the store is open: each has a result that is shown, or fails.
-/

namespace Rollout.CommandLine

/-- A failure that ends the program, and what caused it if that is worth telling apart. -/
structure Failure where
  message : String
  cause : Option String
  deriving DecidableEq, Repr

namespace Failure

/-- A failure without a further cause. -/
def of (message : String) : Failure :=
  ⟨message, none⟩

/-- A text whose later lines are moved in. -/
def moveIn (text : String) : String :=
  String.ofList (text.toList.flatMap fun c => if c = '\n' then "\n    ".toList else [c])

/-- What the program prints about a failure. -/
def render (f : Failure) : String :=
  "Error: " ++ f.message ++
    (match f.cause with
      | none => "\n"
      | some cause => "\n\nCaused by:\n    " ++ moveIn cause ++ "\n")

/-- An error of the store. -/
def ofStore (e : StoreError) : Failure :=
  of e.message

/-- An error of the local scheduler, caused by the store. -/
def ofScheduler (e : StoreError) : Failure :=
  ⟨(SchedulerError.store e).message, some e.message⟩

end Failure

/-- An operation on an open store. -/
inductive Operation where
  | create (d : Deployment)
  | tick (id : String) (command : Command)
  | cancel (id : String)
  | promote (id : String)
  | list
  deriving DecidableEq, Repr

/-- What an operation leaves: what it shows or why it failed, what the log says, and the
store. -/
structure Performed where
  result : Except Failure Json
  events : List LogEvent
  store : Store

namespace Operation

/-- Adds a deployment and, in place of the instances that would already run, the instances of
its previous version. -/
def begin (scheduler : LocalScheduler) (store : Store) (d : Deployment) :
    Except Failure Json × Store :=
  match store.create d with
  | .error e => (.error (.ofStore e), store)
  | .ok store =>
    match scheduler.setCount store d.appId d.previousVersion d.originalInstances with
    | .error e => (.error (.ofScheduler e), store)
    | .ok store => (.ok d.toJson, store)

/-- The result of an operator request. -/
def ofRequest (answer : Except OperatorError Deployment × Store) : Performed where
  result := (answer.1.map Deployment.toJson).mapError fun e => .of e.message
  events := []
  store := answer.2

/-- Carries an operation out. -/
def perform (config : Config) (now : UInt64) (store : Store) : Operation → Performed
  | .create d =>
    let scheduler : LocalScheduler := { autoReady := config.scheduler.autoReady, now := now }
    let (result, store) := begin scheduler store d
    { result := result, events := [], store := store }
  | .tick id command =>
    let scheduler : LocalScheduler := { autoReady := config.scheduler.autoReady, now := now }
    let updater : Updater := { policy := config.controller.stepPolicy, now := now }
    let (report, (store, ())) := updater.tick scheduler.scheduler.onFirst id command (store, ())
    let result : Except Failure Json :=
      match store.deployment? id with
      | .error e => .error (.ofStore e)
      | .ok none => .error (.of ("deployment " ++ id ++ " not found"))
      | .ok (some d) => .ok d.toJson
    { result := result, events := report.events id command, store := store }
  | .cancel id => ofRequest (Operator.requestCancel store id)
  | .promote id => ofRequest (Operator.promote store id)
  | .list =>
    let result : Except Failure Json :=
      (store.deploymentList.map fun ds => Json.array (ds.map Deployment.toJson)).mapError .ofStore
    { result := result, events := [], store := store }

end Operation

end Rollout.CommandLine
