import Rollout.Deployment.Basic
import Rollout.Json.Record
import Rollout.Text.Blank

/-!
# Tick commands

What a single tick is to do for a deployment, and which command the phase of a deployment
calls for.
-/

namespace Rollout

/-- What a tick is to do. -/
inductive Command where
  /-- Step toward the desired number of instances, and finish once it is reached. -/
  | scale
  /-- Step toward the canary total, bounded by the canary's instance target. -/
  | canary
  /-- Revert the rollout to the previous version. -/
  | cancel
  deriving DecidableEq, Repr

namespace Command

/-- The name of a command. -/
def name : Command → String
  | .scale => "scale"
  | .canary => "canary"
  | .cancel => "cancel"

/-- What the log says when a tick with this command fails. -/
def failureMessage : Command → String
  | .scale => "error scaling deployment"
  | .canary => "error canarying deployment"
  | .cancel => "error canceling deployment"

/-- The commands by name. -/
def byName : List (String × Command) :=
  [scale, canary, cancel].map fun c => (c.name, c)

/-- Reads a command, in any case and with blanks around it. A text that is none is given back
as it was understood. -/
def parse (s : String) : Except String Command :=
  let word := String.ofList ((Text.trim s).toList.map Char.toLower)
  match byName.lookup word with
  | some command => .ok command
  | none => .error word

/-- What is said about a text that is no command. -/
def unknownMessage (word : String) : String :=
  "unknown command '" ++ word ++ "', expected scale, canary or cancel"

/-- A command as a member of a record. -/
def toJson (command : Command) : Json :=
  .text command.name

/-- Reads the exact name of a command. -/
def ofJson? : Json → Option Command :=
  Json.oneOf? byName

end Command

/-- The command that a deployment's phase calls for, if it should be ticked at all. -/
def Deployment.command? (d : Deployment) : Option Command :=
  match d.phase with
  | .canceling => some .cancel
  | .deploying | .failed => some (if d.canary.isSome then .canary else .scale)
  | .paused | .deployed | .canceled => none

end Rollout
