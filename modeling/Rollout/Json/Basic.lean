import Rollout.Text.DoubleRange

/-!
# JSON values

Records are kept as JSON text. A value here is what such a text denotes: the members of an
object stay in their order and may repeat, and a number is either a plain natural numeral or
any other decimal. A string literal may escape half of a surrogate pair; it then denotes no
Unicode text, which matters only to a reader that looks at it.
-/

namespace Rollout

/-- A number as it is spelled: a plain natural numeral, or a decimal with a sign, a fraction
or an exponent, whose magnitude is `significand * 10 ^ exponent`. -/
inductive Json.Number where
  | natural (value : Nat)
  | decimal (negative : Bool) (significand : Nat) (exponent : Int)
  deriving DecidableEq, Repr

/-- A JSON value. The text of a string or of a member's name is `none` when its literal holds
a surrogate that stands alone. -/
inductive Json where
  | null
  | bool (value : Bool)
  | number (value : Json.Number)
  | string (text : Option String)
  | array (items : List Json)
  | object (members : List (Option String × Json))
  deriving Repr

namespace Json

/-- A string value. -/
def text (s : String) : Json :=
  .string (some s)

/-- A natural number as a value. -/
def natural (n : Nat) : Json :=
  .number (.natural n)

/-- An object with the given members, in this order. -/
def record (members : List (String × Json)) : Json :=
  .object (members.map fun m => (some m.1, m.2))

/-- A value that may be absent, which is then written as null. -/
def nullable {α : Type} (write : α → Json) : Option α → Json
  | none => .null
  | some a => write a

/-- Whether a number is finite as the product of doubles as which it is read. -/
def Number.isFinite : Number → Bool
  | .natural n => Text.isFiniteProduct n 0
  | .decimal _ significand exponent => Text.isFiniteProduct significand exponent

mutual

/-- How many arrays and objects stand inside one another at the deepest place. -/
def depth : Json → Nat
  | .array items => depthOfItems items + 1
  | .object members => depthOfMembers members + 1
  | _ => 0

/-- The greatest depth among items. -/
def depthOfItems : List Json → Nat
  | [] => 0
  | item :: rest => max item.depth (depthOfItems rest)

/-- The greatest depth among the values of members. -/
def depthOfMembers : List (Option String × Json) → Nat
  | [] => 0
  | (_, value) :: rest => max value.depth (depthOfMembers rest)

end

mutual

/-- Whether every literal in a value denotes something: strings a Unicode text, and numbers a
finite double. -/
def isMeaningful : Json → Bool
  | .number n => n.isFinite
  | .string s => s.isSome
  | .array items => areMeaningful items
  | .object members => haveMeaning members
  | _ => true

/-- Whether all items are meaningful. -/
def areMeaningful : List Json → Bool
  | [] => true
  | item :: rest => item.isMeaningful && areMeaningful rest

/-- Whether all members have a name and a meaningful value. -/
def haveMeaning : List (Option String × Json) → Bool
  | [] => true
  | (name, value) :: rest => name.isSome && value.isMeaningful && haveMeaning rest

end

/-- Appends a member unless a later one has the same name. -/
def keepLast (member : Option String × Json) (later : List (Option String × Json)) :
    List (Option String × Json) :=
  if later.any (·.1 == member.1) then later else member :: later

mutual

/-- The value in which of several members with one name only the last is kept, at every
level. -/
def lastMembers : Json → Json
  | .array items => .array (lastMembersOfItems items)
  | .object members => .object (lastMembersOfMembers members)
  | .null => .null
  | .bool b => .bool b
  | .number n => .number n
  | .string s => .string s

/-- Only last members, in every item. -/
def lastMembersOfItems : List Json → List Json
  | [] => []
  | item :: rest => item.lastMembers :: lastMembersOfItems rest

/-- Only last members, among these and inside their values. -/
def lastMembersOfMembers : List (Option String × Json) → List (Option String × Json)
  | [] => []
  | (name, value) :: rest => keepLast (name, value.lastMembers) (lastMembersOfMembers rest)

end

end Json

end Rollout
