import Rollout.Access
import Rollout.Directories
import Rollout.CommandLine.Operation

/-!
# The program

What the command line does from its arguments to its exit code, over a host that has files, a
clock and a log. The program itself is the same on a real host and on a modelled disk.
-/

namespace Rollout.CommandLine

/-- What the program needs from the system it runs on. -/
structure Host (m : Type → Type) where
  readText : String → m (Except FileError String)
  /-- Makes a single directory. -/
  makeDirectory : String → m (Except FileError Unit)
  isDirectory : String → m Bool
  openStore : String → m (Except StoreError Store)
  closeStore : String → Store → m Unit
  /-- The time in Unix seconds. -/
  now : m UInt64
  /-- Waits for so many milliseconds. -/
  pause : Nat → m Unit
  /-- Does something again and again, after so many seconds each, until interrupted. -/
  everyInterval : UInt64 → m Unit → m Unit
  /-- Adds a line to the log. -/
  logLine : String → m Unit

/-- How the program ends. -/
structure Exit where
  code : Nat
  stdout : String
  stderr : String
  deriving DecidableEq, Repr

namespace Exit

/-- The end after a failure. -/
def ofFailure (f : Failure) : Exit :=
  ⟨1, "", f.render⟩

/-- The end after a result, which is shown. -/
def ofResult : Except Failure Json → Exit
  | .error f => ofFailure f
  | .ok json => ⟨0, json.pretty ++ "\n", ""⟩

end Exit

/-- How the program is called. -/
def usage : String :=
  "Usage: rollout [OPTIONS] <COMMAND>\n\n" ++
  "Commands: run, create, tick, cancel, promote, list\n\n" ++
  "Options:\n" ++
  "  --config <CONFIG>      The configuration file. Defaults apply when omitted\n" ++
  "  --data-dir <DATA_DIR>  Override the data directory of the configuration\n" ++
  "  --log-json             Emit logs as JSON lines\n"

variable {m : Type → Type} [Monad m]

/-- Milliseconds for which an operator command waits until the store is free. -/
def storeWait : Nat :=
  10000

/-- Opens the store of an operator command. -/
def openStore (host : Host m) (path : String) : m (Except Failure Store) := do
  match ← openWhenFree (host.openStore path) host.pause storeWait 0 with
  | .ok store => return .ok store
  | .error e => return .error ⟨"opening state store at " ++ path, some e.message⟩

/-- The configuration that an invocation names, with its data directory. -/
def loadConfig (host : Host m) (invocation : Invocation) : m (Except Failure Config) := do
  let loaded : Except Failure Config ←
    match invocation.config with
    | none => pure (.ok {})
    | some path =>
      let failure (cause : String) : Failure := ⟨"loading config from " ++ path, some cause⟩
      match ← host.readText path with
      | .error e => pure (.error (failure e.message))
      | .ok text => pure ((Config.ofToml text).mapError fun e => failure e.message)
  return loaded.map fun config =>
    match invocation.dataDir with
    | none => config
    | some dir => { config with store := { dataDir := dir } }

/-- Reports events in the log. -/
def report (host : Host m) (logJson : Bool) (events : List LogEvent) : m Unit :=
  events.forM fun event => host.logLine (event.line logJson)

/-- Carries out an operation on the store of a configuration. -/
def operate (host : Host m) (logJson : Bool) (config : Config) (operation : Operation) :
    m Exit := do
  let path := config.databasePath
  match ← openStore host path with
  | .error f => return .ofFailure f
  | .ok store =>
    let performed := operation.perform config (← host.now) store
    host.closeStore path performed.store
    report host logJson performed.events
    return .ofResult performed.result

/-- One pass of the daemon over its store, which it opens for that. -/
def daemonPass (host : Host m) (logJson : Bool) (config : Config) : m Unit := do
  let path := config.databasePath
  let passed ← passBetween (host.openStore path) (host.closeStore path) fun store => do
    let now ← host.now
    let scheduler : LocalScheduler := { autoReady := config.scheduler.autoReady, now := now }
    let updater : Updater := { policy := config.controller.stepPolicy, now := now }
    let (report, (store, ())) := updater.pass scheduler.scheduler.onFirst (store, ())
    return (report, store)
  report host logJson passed.events

/-- Runs the daemon. The store is opened once at the start, so that a bad path fails at
once. -/
def daemon (host : Host m) (logJson : Bool) (config : Config) : m Exit := do
  let path := config.databasePath
  match ← openStore host path with
  | .error f => return .ofFailure f
  | .ok store =>
    host.closeStore path store
    host.everyInterval config.controller.tickIntervalSecs (daemonPass host logJson config)
    return ⟨0, "", ""⟩

/-- Carries out a subcommand. A request is checked before the store is opened. -/
def dispatch (host : Host m) (logJson : Bool) (config : Config) : Subcommand → m Exit
  | .run => daemon host logJson config
  | .create request => do
    match Deployment.new request (← host.now) with
    | .error fault => return .ofFailure (.ofStore (.invalidDeployment fault.message))
    | .ok d => operate host logJson config (.create d)
  | .tick id command => operate host logJson config (.tick id command)
  | .cancel id => operate host logJson config (.cancel id)
  | .promote id => operate host logJson config (.promote id)
  | .list => operate host logJson config .list

/-- Runs an invocation: the configuration is read, the data directory is made, and the
subcommand is carried out. -/
def execute (host : Host m) (invocation : Invocation) : m Exit := do
  match ← loadConfig host invocation with
  | .error f => return .ofFailure f
  | .ok config =>
    match ← makeDirectories host.makeDirectory host.isDirectory config.store.dataDir with
    | .error e => return .ofFailure (.of e.message)
    | .ok () => dispatch host invocation.logJson config invocation.subcommand

/-- Runs the program with its arguments. -/
def program (host : Host m) (args : List String) : m Exit :=
  match parse args with
  | .error .help => return ⟨0, usage, ""⟩
  | .error (.usage detail) => return ⟨2, "", "error: " ++ detail ++ "\n\n" ++ usage⟩
  | .ok invocation => execute host invocation

end Rollout.CommandLine

namespace Rollout

/-- A disk as a host, at a fixed time: nobody else uses it, and the tick loop is interrupted
before its first pass. -/
def Disk.host (now : UInt64) : CommandLine.Host (StateM Disk) where
  readText path := do return (← get).readText path
  makeDirectory path := do
    match (← get).makeDirectory path with
    | .error e => return .error e
    | .ok disk =>
      set disk
      return .ok ()
  isDirectory path := return (← get).isDirectory path
  openStore path := modifyGet (·.openStore path)
  closeStore path store := modify (·.closeStore path store)
  now := return now
  pause _ := return ()
  everyInterval _ _ := return ()
  logLine _ := return ()

end Rollout
