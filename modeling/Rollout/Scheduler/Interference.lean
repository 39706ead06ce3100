import Rollout.Operator
import Rollout.Scheduler.Local

/-!
# Schedulers under interference

For trying out how a rollout takes failures and other writers, a scheduler can be wrapped: its
calls are recorded, and rules may change the store before a call, make the call fail, or
answer it in the scheduler's place.
-/

namespace Rollout

/-- The three kinds of scheduler calls. -/
inductive CallKind where
  | query
  | setCount
  | remove
  deriving DecidableEq, Repr

/-- The kind of a call. -/
def Call.kind : Call → CallKind
  | .query .. => .query
  | .setCount .. => .setCount
  | .remove .. => .remove

namespace Interference

/-- What another writer does to a stored deployment. -/
inductive Effect where
  | delete
  | touch
  | cancel
  | promote
  deriving DecidableEq, Repr

/-- A rule for calls of one kind, or of any. It lets some calls pass first and then acts, a
limited number of times if it has a limit. -/
structure Rule where
  kind : Option CallKind
  skip : Nat
  times : Option Nat
  effects : List (Effect × String)
  /-- The error that the call ends with, after the effects. -/
  failure : Option SchedulerError
  /-- The answer to a query. -/
  report : Option Health
  /-- Whether the other calls succeed without anything being done. -/
  absorb : Bool

/-- The store after another writer's deed; what fails is passed over. -/
def Effect.apply (store : Store) : Effect × String → Store
  | (.delete, id) => (store.deleteDeployment id).2
  | (.touch, id) =>
    match store.update id fun d => d with
    | .ok (_, store) => store
    | .error _ => store
  | (.cancel, id) => (Operator.requestCancel store id).2
  | (.promote, id) => (Operator.promote store id).2

/-- Finds the rule that acts on a call of a kind. A rule that still has calls to let pass uses
one of them up. -/
def select (kind : CallKind) : List Rule → Option Rule × List Rule
  | [] => (none, [])
  | rule :: rest =>
    if rule.kind.all (· = kind) then
      if rule.skip ≠ 0 then
        let (found, rest) := select kind rest
        (found, { rule with skip := rule.skip - 1 } :: rest)
      else
        match rule.times with
        | none => (some rule, rule :: rest)
        | some 0 =>
          let (found, rest) := select kind rest
          (found, rule :: rest)
        | some (n + 1) => (some rule, { rule with times := some n } :: rest)
    else
      let (found, rest) := select kind rest
      (found, rule :: rest)

/-- The answer that a rule gives in place of the scheduler, if it does. -/
def Rule.answer? (rule : Rule) : (call : Call) → Option (Except SchedulerError call.Answer)
  | .query .. => (rule.failure.map .error).or (rule.report.map .ok)
  | .setCount .. => (rule.failure.map .error).or (if rule.absorb then some (.ok ()) else none)
  | .remove .. => (rule.failure.map .error).or (if rule.absorb then some (.ok 0) else none)

/-- The calls so far, the latest first, and the rules in force. -/
structure Log where
  calls : List Call
  rules : List Rule

end Interference

/-- A scheduler of the store whose calls are recorded and subject to rules. -/
def Scheduler.interfered (s : Scheduler Store) : Scheduler (Store × Interference.Log) :=
  fun call (store, log) =>
    let (rule, rules) := Interference.select call.kind log.rules
    let log := { calls := call :: log.calls, rules := rules }
    match rule with
    | none =>
      let (answer, store) := s call store
      (answer, (store, log))
    | some rule =>
      let store := rule.effects.foldl Interference.Effect.apply store
      match rule.answer? call with
      | some answer => (answer, (store, log))
      | none =>
        let (answer, store) := s call store
        (answer, (store, log))

end Rollout
