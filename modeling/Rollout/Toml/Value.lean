/-!
# TOML values and tables

What a configuration text says. Floating point numbers and dates are kept only as such: no
setting has their kind, so which one it was makes no difference. Tables remember how they
came about, since that decides what may still be added to them.
-/

namespace Rollout.Toml

/-- How a table came about. -/
inductive Origin where
  /-- By a header of its own, or as the whole document. -/
  | header
  /-- By the header of a table inside it. -/
  | implied
  /-- By a dotted key. -/
  | dotted
  /-- In one line, between braces. -/
  | inline
  deriving DecidableEq, Repr

/-- A value. -/
inductive Value where
  | string (text : String)
  | integer (value : Int)
  | float
  | boolean (value : Bool)
  | datetime
  | array (items : List Value)
  /-- Tables under one header of their own each. -/
  | tables (items : List (List (String × Value)))
  | table (origin : Origin) (entries : List (String × Value))

/-- The entries of a table, in the order in which they were added. -/
abbrev Entries : Type :=
  List (String × Value)

namespace Entries

/-- Replaces the value of a key, or adds the key at the end. -/
def set (key : String) (value : Value) : Entries → Entries
  | [] => [(key, value)]
  | entry :: rest =>
    if entry.1 = key then (key, value) :: rest else entry :: set key value rest

/-- Adds a key that must not be there yet. -/
def add? (key : String) (value : Value) (entries : Entries) : Option Entries :=
  match entries.lookup key with
  | some _ => none
  | none => some (entries ++ [(key, value)])

/-- Changes the table at a path. Tables that are missing on the way come about by a dotted key
or by a header. A dotted key must not enter a table with a header of its own, and nothing
enters a table written in one line. A path enters the last one of several tables under one
name. -/
def descend (byDots : Bool) (change : Origin → Entries → Option Entries) :
    List String → Origin → Entries → Option Entries
  | [], origin, entries => change origin entries
  | key :: path, _, entries =>
    match entries.lookup key with
    | none => do
      let origin := if byDots then .dotted else .implied
      let child ← descend byDots change path origin []
      return entries ++ [(key, .table origin child)]
    | some (.table origin child) =>
      if origin = .inline ∨ (byDots ∧ origin = .header) then none
      else do
        let child ← descend byDots change path origin child
        return set key (.table origin child) entries
    | some (.tables items) =>
      match items.getLast? with
      | none => none
      | some last => do
        let last ← descend byDots change path .header last
        return set key (.tables (items.dropLast ++ [last])) entries
    | some _ => none

/-- Adds a value under a dotted key. The table that holds its last part must have come about
by dots, unless there is only one part. -/
def addDotted? (path : List String) (key : String) (value : Value) (origin : Origin)
    (entries : Entries) : Option Entries :=
  descend true (fun origin entries =>
    if path ≠ [] ∧ origin ≠ .dotted then none else entries.add? key value) path origin entries

/-- Opens the table of a header. A table that only the headers of tables inside it have
brought about may still get its own. -/
def openTable? (key : String) (entries : Entries) : Option Entries :=
  match entries.lookup key with
  | none => some (entries ++ [(key, .table .header [])])
  | some (.table .implied child) => some (set key (.table .header child) entries)
  | some _ => none

/-- Opens one more of the tables under a name. -/
def openNext? (key : String) (entries : Entries) : Option Entries :=
  match entries.lookup key with
  | none => some (entries ++ [(key, .tables [[]])])
  | some (.tables items) => some (set key (.tables (items ++ [[]])) entries)
  | some _ => none

end Entries

end Rollout.Toml
