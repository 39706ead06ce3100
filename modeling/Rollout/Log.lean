import Rollout.Tick.Basic

/-!
# The log

Failures that nobody waits for are reported in the log. An event has a level, a message and
fields that say what it is about.
-/

namespace Rollout

/-- How serious an event is. -/
inductive LogLevel where
  | warn
  | error
  deriving DecidableEq, Repr

/-- The name of a level. -/
def LogLevel.name : LogLevel → String
  | .warn => "WARN"
  | .error => "ERROR"

/-- An event in the log. -/
structure LogEvent where
  level : LogLevel
  message : String
  fields : List (String × String)
  deriving DecidableEq, Repr

namespace LogEvent

/-- An event as a record. -/
def toJson (event : LogEvent) : Json :=
  .record ([("level", .text event.level.name), ("message", .text event.message)] ++
    event.fields.map fun field => (field.1, .text field.2))

/-- An event as a line of words, with its fields behind the message. -/
def words (event : LogEvent) : String :=
  String.intercalate " " ([event.level.name, event.message] ++
    event.fields.map fun field => field.1 ++ "=" ++ field.2)

/-- The line that an event is in the log, as a record or in words. -/
def line (asJson : Bool) (event : LogEvent) : String :=
  if asJson then event.toJson.compact else event.words

end LogEvent

/-- What the log says about a tick: nothing unless it failed. -/
def TickReport.events (id : String) (command : Command) : TickReport → List LogEvent
  | .committed _ | .unchanged _ => []
  | .failed e unsaved =>
    let saving : List LogEvent := unsaved.toList.map fun lost =>
      { level := .error
        message := "error saving deployment error"
        fields := [("deployment_id", id), ("error", lost.message)] }
    saving ++ [
      { level := .error
        message := command.failureMessage
        fields := [
          ("deployment_id", id),
          ("command", command.name),
          ("error_kind", e.kind),
          ("error_class", e.classify.name),
          ("error", e.message)] }]

end Rollout
