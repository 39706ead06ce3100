import Rollout.Store.Basic

/-!
# Stores as texts

Between two runs of the program a store is kept as one text: an object with the two tables,
each with its keys and the texts under them.
-/

namespace Rollout

namespace Table

/-- A table as an object, with its keys in order. -/
def toJson (t : Table String) : Json :=
  .record (t.entries.map fun entry => (entry.1, .text entry.2))

/-- Adds the text of a member under its name. -/
def addMember? (t : Table String) (member : Option String × Json) : Option (Table String) := do
  return t.insert (← member.1) (← member.2.text?)

/-- Reads a table from an object, whose members may come in any order. -/
def ofJson? : Json → Option (Table String)
  | .object members => members.foldlM addMember? .empty
  | _ => none

end Table

namespace Store

/-- The text of a store. -/
def toText (store : Store) : String :=
  (Json.record [
    ("deployments", store.deployments.toJson),
    ("instances", store.instances.toJson)]).compact

/-- The store that a text holds; an empty text is the store without records. -/
def ofText? (s : String) : Option Store :=
  if s.isEmpty then some .empty
  else do
    let r ← Json.Record.ofJson? 2 (← Json.parse? s)
    return {
      deployments := ← r.required 0 "deployments" Table.ofJson?
      instances := ← r.required 1 "instances" Table.ofJson? }

end Store

end Rollout
