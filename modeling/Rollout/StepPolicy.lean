import Rollout.Json.Record
import Rollout.Text.Numeral

/-!
# Step policies

A rollout moves the new version's instance count one bounded step at a time. The policy says
how large a step is, given the distance that remains.
-/

namespace Rollout

/-- How many instances one tick may add or remove: a fixed number, or a percentage of the
distance that remains. -/
inductive StepPolicy where
  | fixed (instances : UInt32)
  | fraction (percent : UInt32)
  deriving DecidableEq, Repr

/-- Why a policy is refused. -/
inductive StepPolicy.Fault where
  | emptyStep
  | percentOutOfRange (percent : UInt32)
  deriving DecidableEq, Repr

namespace StepPolicy

/-- The fault in words. -/
def Fault.message : Fault → String
  | .emptyStep => "fixed step policy needs at least one instance per step"
  | .percentOutOfRange percent =>
    "fraction step policy percent must be within 1..=100, got " ++ Text.decimal percent.toNat

/-- One instance at a time. -/
instance : Inhabited StepPolicy :=
  ⟨.fixed 1⟩

/-- The size that a policy names, before it is brought into range. A percentage is taken in 64
bits and rounded down; only the low 32 bits of the result count. -/
def raw (remaining : UInt32) : StepPolicy → UInt32
  | .fixed instances => instances
  | .fraction percent => (remaining.toUInt64 * percent.toUInt64 / 100).toUInt32

/-- The size of the next step: at least one while any distance remains, and never more than
that distance. -/
def step (policy : StepPolicy) (remaining : UInt32) : UInt32 :=
  if remaining = 0 then 0 else min (max (policy.raw remaining) 1) remaining

/-- The fault of a policy that would never move or would move by more than the whole
distance. -/
def fault? : StepPolicy → Option Fault
  | .fixed instances => if instances = 0 then some .emptyStep else none
  | .fraction percent =>
    if percent = 0 ∨ 100 < percent then some (.percentOutOfRange percent) else none

/-! ## Written form -/

/-- A policy as an object that names its kind. -/
def toJson : StepPolicy → Json
  | .fixed instances =>
    .record [("kind", .text "fixed"), ("instances", .natural instances.toNat)]
  | .fraction percent =>
    .record [("kind", .text "fraction"), ("percent", .natural percent.toNat)]

/-- The policy of a kind, made from the value of the field that belongs to the kind. -/
def kinds : List (String × String × (UInt32 → StepPolicy)) :=
  [("fixed", "instances", .fixed), ("fraction", "percent", .fraction)]

/-- Containers stand inside one another at most this deep in a text that is read in full. -/
def depthLimit : Nat :=
  127

/-- Reads a policy that stands inside `enclosing` arrays and objects. Its kind decides which
other member counts. The rest is passed over, but since the kind may come last it has to be
read in full: every string, number and depth in it has to be in range. An array gives the
kind and its field. -/
def ofJson? (enclosing : Nat) (json : Json) : Option StepPolicy :=
  if json.depth + enclosing ≤ depthLimit ∧ json.isMeaningful then
    match json with
    | .object members => do
      let record := Json.Record.named members
      let kind ← record.required 0 "kind" Json.text?
      let (name, make) ← kinds.lookup kind
      return make (← record.required 1 name Json.count?)
    | .array [kind, value] => do
      let (_, make) ← kinds.lookup (← kind.text?)
      return make (← value.count?)
    | _ => none
  else none

end StepPolicy

end Rollout
