import Rollout.Path
import Rollout.StepPolicy
import Rollout.Toml.Document

/-!
# Configuration

The settings of the daemon: how often and in which steps it ticks, where the store is, and
whether the local scheduler's instances are ready at once. Whatever a configuration leaves out
has its default.
-/

namespace Rollout

/-- The settings of the tick loop. -/
structure ControllerConfig where
  /-- Seconds between two passes. -/
  tickIntervalSecs : UInt64 := 5
  stepPolicy : StepPolicy := default
  deriving DecidableEq, Repr

/-- The settings of the store. -/
structure StoreConfig where
  dataDir : String := "/var/lib/capstan"
  deriving DecidableEq, Repr

/-- The settings of the local scheduler. -/
structure SchedulerConfig where
  autoReady : Bool := true
  deriving DecidableEq, Repr

/-- All settings. -/
structure Config where
  controller : ControllerConfig := {}
  store : StoreConfig := {}
  scheduler : SchedulerConfig := {}
  deriving DecidableEq, Repr

/-- Why a configuration is refused although it can be read. -/
inductive Config.Fault where
  | zeroInterval
  | policy (fault : StepPolicy.Fault)
  deriving DecidableEq, Repr

namespace Config

/-- The fault in words. -/
def Fault.message : Fault → String
  | .zeroInterval => "controller.tick_interval_secs must be greater than zero"
  | .policy fault => "controller.step_policy: " ++ fault.message

/-- The first fault of a configuration. -/
def fault? (config : Config) : Option Fault :=
  if config.controller.tickIntervalSecs = 0 then some .zeroInterval
  else config.controller.stepPolicy.fault?.map .policy

/-- Whether two configurations say the same. The data directory may be spelled in different
ways. -/
def agrees (a b : Config) : Bool :=
  a.controller = b.controller &&
    (Path.ofText a.store.dataDir).agrees (Path.ofText b.store.dataDir) &&
    a.scheduler = b.scheduler

/-- The path of the database inside the data directory. -/
def databasePath (config : Config) : String :=
  Path.join config.store.dataDir "capstan.redb"

/-! ## As a record -/

/-- A configuration as a record. -/
def toJson (config : Config) : Json :=
  .record [
    ("controller", .record [
      ("tick_interval_secs", .natural config.controller.tickIntervalSecs.toNat),
      ("step_policy", config.controller.stepPolicy.toJson)]),
    ("store", .record [("data_dir", .text config.store.dataDir)]),
    ("scheduler", .record [("auto_ready", .bool config.scheduler.autoReady)])]

/-- Reads the settings of the tick loop. -/
def controllerOfJson? (json : Json) : Option ControllerConfig := do
  let r ← Json.Record.ofJson? 2 json
  return {
    tickIntervalSecs := ← r.withDefault 0 "tick_interval_secs" 5 Json.word?
    stepPolicy := ← r.withDefault 1 "step_policy" default (StepPolicy.ofJson? 2) }

/-- Reads the settings of the store. -/
def storeOfJson? (json : Json) : Option StoreConfig := do
  let r ← Json.Record.ofJson? 1 json
  return { dataDir := ← r.withDefault 0 "data_dir" { : StoreConfig }.dataDir Json.text? }

/-- Reads the settings of the local scheduler. -/
def schedulerOfJson? (json : Json) : Option SchedulerConfig := do
  let r ← Json.Record.ofJson? 1 json
  return { autoReady := ← r.withDefault 0 "auto_ready" true Json.flag? }

/-- Reads a configuration without looking for faults. -/
def ofJson? (json : Json) : Option Config := do
  let r ← Json.Record.ofJson? 3 json
  return {
    controller := ← r.withDefault 0 "controller" {} controllerOfJson?
    store := ← r.withDefault 1 "store" {} storeOfJson?
    scheduler := ← r.withDefault 2 "scheduler" {} schedulerOfJson? }

/-! ## As TOML -/

/-- Reads the settings of a table, whose keys may be missing, by position from an array, or
from a date, which has no settings. -/
def section? (value : Toml.Value) : Option (Nat → String → Option Toml.Value) :=
  match value with
  | .table _ entries => some fun _ key => entries.lookup key
  | .array items => some fun position _ => items[position]?
  | .tables items => some fun position _ => (items[position]?).map (Toml.Value.table .header)
  | .datetime => some fun _ _ => none
  | _ => none

/-- Reads a setting that has a default. -/
def setting? {α : Type} (default : α) (read : Toml.Value → Option α) :
    Option Toml.Value → Option α
  | none => some default
  | some value => read value

/-- A natural number below a bound. -/
def natural? (bound : Nat) : Toml.Value → Option Nat
  | .integer i => if 0 ≤ i ∧ i < bound then some i.toNat else none
  | _ => none

/-- A count of instances, or a percentage. -/
def tomlCount? (value : Toml.Value) : Option UInt32 :=
  (natural? UInt32.size value).map UInt32.ofNat

/-- A number of seconds. -/
def tomlSeconds? (value : Toml.Value) : Option UInt64 :=
  (natural? UInt64.size value).map UInt64.ofNat

/-- A text. -/
def tomlText? : Toml.Value → Option String
  | .string s => some s
  | _ => none

/-- A truth value. -/
def tomlFlag? : Toml.Value → Option Bool
  | .boolean b => some b
  | _ => none

/-- Reads a policy: a table with its kind and the field of that kind, or an array of the two. -/
def policyOfToml? : Toml.Value → Option StepPolicy
  | .table _ entries => do
    let (name, make) ← StepPolicy.kinds.lookup (← tomlText? (← entries.lookup "kind"))
    return make (← tomlCount? (← entries.lookup name))
  | .array [kind, value] => do
    let (_, make) ← StepPolicy.kinds.lookup (← tomlText? kind)
    return make (← tomlCount? value)
  | _ => none

/-- Reads the settings of the tick loop. -/
def controllerOfToml? (value : Toml.Value) : Option ControllerConfig := do
  let field ← section? value
  return {
    tickIntervalSecs := ← setting? 5 tomlSeconds? (field 0 "tick_interval_secs")
    stepPolicy := ← setting? default policyOfToml? (field 1 "step_policy") }

/-- Reads the settings of the store. -/
def storeOfToml? (value : Toml.Value) : Option StoreConfig := do
  let field ← section? value
  return { dataDir := ← setting? { : StoreConfig }.dataDir tomlText? (field 0 "data_dir") }

/-- Reads the settings of the local scheduler. -/
def schedulerOfToml? (value : Toml.Value) : Option SchedulerConfig := do
  let field ← section? value
  return { autoReady := ← setting? true tomlFlag? (field 0 "auto_ready") }

/-- Reads a configuration from the entries of a document. -/
def ofEntries? (entries : Toml.Entries) : Option Config := do
  return {
    controller := ← setting? {} controllerOfToml? (entries.lookup "controller")
    store := ← setting? {} storeOfToml? (entries.lookup "store")
    scheduler := ← setting? {} schedulerOfToml? (entries.lookup "scheduler") }

/-- Why a configuration text is refused. -/
inductive TextError where
  /-- It is no TOML, or its settings have the wrong types. -/
  | malformed
  | invalid (fault : Fault)
  deriving DecidableEq, Repr

/-- The error in words. -/
def TextError.message : TextError → String
  | .malformed => "the text is not a TOML configuration"
  | .invalid fault => fault.message

/-- Reads a configuration text. -/
def ofToml (text : String) : Except TextError Config :=
  match (Toml.parse? text).bind ofEntries? with
  | none => .error .malformed
  | some config =>
    match config.fault? with
    | some fault => .error (.invalid fault)
    | none => .ok config

/-- The lines that say which policy is meant. -/
def policyLines : StepPolicy → String
  | .fixed instances =>
    "kind = \"fixed\"\ninstances = " ++ Text.decimal instances.toNat ++ "\n"
  | .fraction percent =>
    "kind = \"fraction\"\npercent = " ++ Text.decimal percent.toNat ++ "\n"

/-- The greatest number that TOML can hold. -/
def tomlLimit : Nat :=
  9223372036854775807

/-- A configuration as TOML, with all its settings, unless the interval is beyond what TOML
can hold. -/
def toToml? (config : Config) : Option String :=
  if tomlLimit < config.controller.tickIntervalSecs.toNat then none
  else some (
    "[controller]\n" ++
    "tick_interval_secs = " ++ Text.decimal config.controller.tickIntervalSecs.toNat ++ "\n" ++
    "\n[controller.step_policy]\n" ++
    policyLines config.controller.stepPolicy ++
    "\n[store]\n" ++
    "data_dir = " ++ String.ofList (Toml.quote config.store.dataDir) ++ "\n" ++
    "\n[scheduler]\n" ++
    "auto_ready = " ++ (if config.scheduler.autoReady then "true" else "false") ++ "\n")

end Config

end Rollout
