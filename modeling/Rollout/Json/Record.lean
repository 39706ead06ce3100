import Rollout.Json.Basic

/-!
# Reading records

A record is written as an object whose members may come in any order. A reader looks at the
members it knows, each of which may be there once, and passes over all others, so that a later
version may add members. A record may also be given as an array of its fields in order.
-/

namespace Rollout.Json

/-! ## Values of fields -/

/-- A text. -/
def text? : Json → Option String
  | .string s => s
  | _ => none

/-- A truth value. -/
def flag? : Json → Option Bool
  | .bool b => some b
  | _ => none

/-- A natural number of at most 32 bits, spelled plainly. -/
def count? : Json → Option UInt32
  | .number (.natural n) => if h : n < UInt32.size then some (UInt32.ofNatLT n h) else none
  | _ => none

/-- A natural number of at most 64 bits, spelled plainly. -/
def word? : Json → Option UInt64
  | .number (.natural n) => if h : n < UInt64.size then some (UInt64.ofNatLT n h) else none
  | _ => none

/-- One of several named values. Instead of the name alone, an object may hold it with a null. -/
def oneOf? {α : Type} (values : List (String × α)) : Json → Option α
  | .string (some name) => values.lookup name
  | .object [(some name, .null)] => values.lookup name
  | _ => none

/-- A value, or null for none. -/
def nullable? {α : Type} (read : Json → Option α) : Json → Option (Option α)
  | .null => some none
  | json => (read json).map some

/-! ## Fields of records -/

/-- What a record says about a field: its value, or nothing, because no member has its name or
because the array ended before it. -/
inductive Field where
  | given (value : Json)
  | unnamed
  | beyond

/-- The two forms in which a record is written. -/
inductive Record where
  | named (members : List (Option String × Json))
  | listed (items : List Json)

namespace Record

/-- The form of a record with `size` fields. Every name must be a text, and an array must not
have more items than there are fields. -/
def ofJson? (size : Nat) : Json → Option Record
  | .object members => if members.all (·.1.isSome) then some (.named members) else none
  | .array items => if items.length ≤ size then some (.listed items) else none
  | _ => none

/-- What a record says about the field with a position and a name. A name must not occur
twice. -/
def field? (position : Nat) (name : String) : Record → Option Field
  | .named members =>
    match members.filter (·.1 == some name) with
    | [] => some .unnamed
    | [(_, value)] => some (.given value)
    | _ => none
  | .listed items => some ((items[position]?).elim .beyond .given)

/-- The value of a field that has to be there. -/
def required {α : Type} (r : Record) (position : Nat) (name : String)
    (read : Json → Option α) : Option α :=
  match r.field? position name with
  | some (.given value) => read value
  | _ => none

/-- The value of a field that may be null, which an object may also leave out. -/
def optional {α : Type} (r : Record) (position : Nat) (name : String)
    (read : Json → Option α) : Option (Option α) :=
  match r.field? position name with
  | some (.given value) => nullable? read value
  | some .unnamed => some none
  | _ => none

/-- The value of a field that may be left out and then has a default. -/
def withDefault {α : Type} (r : Record) (position : Nat) (name : String) (default : α)
    (read : Json → Option α) : Option α :=
  match r.field? position name with
  | some (.given value) => read value
  | some _ => some default
  | none => none

end Record

end Rollout.Json
