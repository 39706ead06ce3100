import Mathlib.Data.List.Basic
import Rollout.Tick.Action

/-!
# Exchanges with a scheduler

A plan talks to a scheduler in exchanges, each a call with the answer that it got. What a plan
can come to is described here without a scheduler: for any answers whatever. A scheduler that
carries the plan out picks one of these courses.
-/

namespace Rollout

/-- A call to a scheduler, its answer, and the world that the scheduler left behind. -/
structure Exchange (World : Type) where
  call : Call
  answer : Except SchedulerError call.Answer
  after : World

/-- A call has been answered, and not with an error. -/
def Exchange.Answered {World : Type} (e : Exchange World) : Prop :=
  ∃ answer, e.answer = .ok answer

namespace Plan

variable {α β World : Type}

/-- With some answers the plan makes these exchanges and has this result. -/
inductive Runs : Plan α → List (Exchange World) → α → Prop where
  | done (a : α) : Runs (.done a) [] a
  | call {c : Call} {next : Except SchedulerError c.Answer → Plan α}
      {answer : Except SchedulerError c.Answer} {w : World} {trace : List (Exchange World)} {a : α}
      (h : Runs (next answer) trace a) : Runs (.call c next) (⟨c, answer, w⟩ :: trace) a

/-- A plan that is done makes no exchange. -/
theorem runs_done {a b : α} {trace : List (Exchange World)} (h : (Plan.done a).Runs trace b) :
    trace = [] ∧ b = a := by
  cases h
  exact ⟨rfl, rfl⟩

/-- The first exchange of a plan that calls is that call, and the rest follows its answer. -/
theorem runs_call {c : Call} {next : Except SchedulerError c.Answer → Plan α}
    {trace : List (Exchange World)} {a : α} (h : (Plan.call c next).Runs trace a) :
    ∃ answer w rest, trace = ⟨c, answer, w⟩ :: rest ∧ (next answer).Runs rest a := by
  cases h with
  | call h => exact ⟨_, _, _, rfl, h⟩

/-- A plan that goes on has the exchanges of both parts. -/
theorem runs_bind {plan : Plan α} {f : α → Plan β} {trace : List (Exchange World)} {b : β}
    (h : (plan.bind f).Runs trace b) :
    ∃ a first second, trace = first ++ second ∧ plan.Runs first a ∧ (f a).Runs second b := by
  induction plan generalizing trace with
  | done a => exact ⟨a, [], trace, rfl, .done a, h⟩
  | call c next ih =>
    obtain ⟨answer, w, rest, rfl, hrest⟩ := runs_call h
    obtain ⟨a, first, second, rfl, hfirst, hsecond⟩ := ih answer hrest
    exact ⟨a, ⟨c, answer, w⟩ :: first, second, rfl, .call hfirst, hsecond⟩

/-- The exchanges that a plan makes with a scheduler. -/
def trace (scheduler : Scheduler World) : Plan α → World → List (Exchange World)
  | .done _, _ => []
  | .call c next, w =>
    ⟨c, (scheduler c w).1, (scheduler c w).2⟩ ::
      (next (scheduler c w).1).trace scheduler (scheduler c w).2

/-- Carrying a plan out is one of its courses. -/
theorem runs_trace (scheduler : Scheduler World) (plan : Plan α) (w : World) :
    plan.Runs (plan.trace scheduler w) (plan.run scheduler w).1 := by
  induction plan generalizing w with
  | done a => exact .done a
  | call c next ih => exact .call (ih _ _)

end Plan

namespace Scheduler

variable {α World : Type}

/-- The exchanges are those that a scheduler makes one after another, from one world to
another. -/
inductive Makes (scheduler : Scheduler World) : World → List (Exchange World) → World → Prop where
  | nil (w : World) : Makes scheduler w [] w
  | cons {w w' : World} {c : Call} {trace : List (Exchange World)}
      (h : Makes scheduler (scheduler c w).2 trace w') :
      Makes scheduler w (⟨c, (scheduler c w).1, (scheduler c w).2⟩ :: trace) w'

/-- A scheduler makes the exchanges of a plan that it carries out. -/
theorem makes_trace (scheduler : Scheduler World) (plan : Plan α) (w : World) :
    scheduler.Makes w (plan.trace scheduler w) (plan.run scheduler w).2 := by
  induction plan generalizing w with
  | done a => exact .nil w
  | call c next ih => exact .cons (ih _ _)

/-- What every call keeps holds after each exchange and at the end. -/
theorem Makes.keeps {scheduler : Scheduler World} {w w' : World} {trace : List (Exchange World)}
    (h : scheduler.Makes w trace w') {allowed : Call → Prop} {kept : World → Prop}
    (hstep : ∀ c w, allowed c → kept w → kept (scheduler c w).2)
    (hcalls : ∀ e ∈ trace, allowed e.call) (hw : kept w) :
    (∀ e ∈ trace, kept e.after) ∧ kept w' := by
  induction h with
  | nil w => exact ⟨by simp, hw⟩
  | cons h ih =>
    obtain ⟨hfirst, hrest⟩ := List.forall_mem_cons.mp hcalls
    have hnext := hstep _ _ hfirst hw
    obtain ⟨htrace, hend⟩ := ih hrest hnext
    exact ⟨List.forall_mem_cons.mpr ⟨hnext, htrace⟩, hend⟩

/-- The first exchange is one with the first world, and the others go on from what it left. -/
theorem Makes.cons_inv {scheduler : Scheduler World} {w w' : World} {e : Exchange World}
    {trace : List (Exchange World)} (h : scheduler.Makes w (e :: trace) w') :
    scheduler e.call w = (e.answer, e.after) ∧ scheduler.Makes e.after trace w' := by
  generalize hlist : e :: trace = exchanges at h
  cases h with
  | nil => cases hlist
  | cons h =>
    obtain ⟨rfl, rfl⟩ := List.cons.inj hlist
    exact ⟨rfl, h⟩

/-- Without an exchange the world stays as it is. -/
theorem Makes.nil_inv {scheduler : Scheduler World} {w w' : World}
    (h : scheduler.Makes w [] w') : w' = w := by
  cases h
  rfl

/-- Exchanges in two parts pass through a world between them. -/
theorem Makes.append_inv {scheduler : Scheduler World} {w w' : World}
    {first second : List (Exchange World)} (h : scheduler.Makes w (first ++ second) w') :
    ∃ between, scheduler.Makes w first between ∧ scheduler.Makes between second w' := by
  induction first generalizing w with
  | nil => exact ⟨w, .nil w, h⟩
  | cons e first ih =>
    obtain ⟨heq, hrest⟩ := h.cons_inv
    obtain ⟨between, hfirst, hsecond⟩ := ih hrest
    refine ⟨between, ?_, hsecond⟩
    obtain ⟨c, answer, after⟩ := e
    have heq : scheduler c w = (answer, after) := heq
    have hcons : scheduler.Makes w (⟨c, (scheduler c w).1, (scheduler c w).2⟩ :: first) between :=
      .cons (by rw [heq]; exact hfirst)
    rwa [heq] at hcons

/-- A scheduler none of whose calls ever fails. -/
def Answers (scheduler : Scheduler World) : Prop :=
  ∀ c w, ∃ answer, (scheduler c w).1 = .ok answer

/-- All exchanges with a scheduler none of whose calls fails have been answered. -/
theorem Makes.answered {scheduler : Scheduler World} {w w' : World} {trace : List (Exchange World)}
    (h : scheduler.Makes w trace w') (hanswers : scheduler.Answers) :
    ∀ e ∈ trace, e.Answered := by
  induction h with
  | nil => simp
  | cons _ ih => exact List.forall_mem_cons.mpr ⟨hanswers _ _, ih⟩

/-- A scheduler that always gives the same report, and does whatever it is asked. -/
def reporting (health : Health) : Scheduler Unit
  | .query _ _, w => (.ok health, w)
  | .setCount _ _ _, w => (.ok (), w)
  | .remove _ _, w => (.ok 0, w)

end Scheduler

/-! ## Actions -/

namespace Action

variable {α β World : Type} {d : Deployment} {trace : List (Exchange World)}

/-- An action that finishes makes no exchange and keeps its copy. -/
theorem runs_finish {a : α} {outcome : Outcome α} (h : (finish d a).Runs trace outcome) :
    trace = [] ∧ outcome = (d, .ok a) :=
  Plan.runs_done h

/-- An action that fails makes no exchange and keeps its copy. -/
theorem runs_fail {e : TickError} {outcome : Outcome α} (h : (fail d e).Runs trace outcome) :
    trace = [] ∧ outcome = (d, .error e) :=
  Plan.runs_done h

/-- A call fails and the action with it, or it is answered and the action goes on. -/
theorem runs_ask {c : Call} {next : c.Answer → Plan (Outcome α)} {outcome : Outcome α}
    (h : (ask d c next).Runs trace outcome) :
    (∃ e w, trace = [⟨c, .error e, w⟩] ∧ outcome = (d, .error (.scheduler e))) ∨
    (∃ answer w rest, trace = ⟨c, .ok answer, w⟩ :: rest ∧ (next answer).Runs rest outcome) := by
  obtain ⟨answer, w, rest, rfl, hrest⟩ := Plan.runs_call h
  cases answer with
  | error e =>
    obtain ⟨rfl, rfl⟩ := runs_fail hrest
    exact Or.inl ⟨e, w, rfl, rfl⟩
  | ok answer => exact Or.inr ⟨answer, w, rest, rfl, hrest⟩

/-- An action fails and what follows it is left out, or both are carried out. -/
theorem runs_andThen {plan : Plan (Outcome α)} {next : Deployment → α → Plan (Outcome β)}
    {outcome : Outcome β} (h : (andThen plan next).Runs trace outcome) :
    (∃ d e, plan.Runs trace (d, .error e) ∧ outcome = (d, .error e)) ∨
    (∃ d a first second, trace = first ++ second ∧ plan.Runs first (d, .ok a) ∧
      (next d a).Runs second outcome) := by
  obtain ⟨⟨d, result⟩, first, second, rfl, hfirst, hsecond⟩ := Plan.runs_bind h
  cases result with
  | error e =>
    obtain ⟨rfl, rfl⟩ := runs_fail hsecond
    exact Or.inl ⟨d, e, by rwa [List.append_nil], rfl⟩
  | ok a => exact Or.inr ⟨d, a, first, second, rfl, hfirst, hsecond⟩

/-- The last call of an action fails, or its answer ends the action. -/
theorem runs_ask_finish {d' : Deployment} {c : Call} {a : α} {outcome : Outcome α}
    (h : (ask d c fun _ => finish d' a).Runs trace outcome) :
    (∃ e w, trace = [⟨c, .error e, w⟩] ∧ outcome = (d, .error (.scheduler e))) ∨
    (∃ answer w, trace = [⟨c, .ok answer, w⟩] ∧ outcome = (d', .ok a)) := by
  rcases runs_ask h with hfailed | ⟨answer, w, rest, rfl, hrest⟩
  · exact Or.inl hfailed
  · obtain ⟨rfl, rfl⟩ := runs_finish hrest
    exact Or.inr ⟨answer, w, rfl, rfl⟩

/-- What is made of an action at its end adds no exchanges. -/
theorem runs_andThen_finish {plan : Plan (Outcome α)} {after : Deployment → α → Deployment}
    {b : β} {outcome : Outcome β}
    (h : (andThen plan fun d a => finish (after d a) b).Runs trace outcome) :
    (∃ d e, plan.Runs trace (d, .error e) ∧ outcome = (d, .error e)) ∨
    (∃ d a, plan.Runs trace (d, .ok a) ∧ outcome = (after d a, .ok b)) := by
  rcases runs_andThen h with hfailed | ⟨d, a, first, second, rfl, hfirst, hsecond⟩
  · exact Or.inl hfailed
  · obtain ⟨rfl, rfl⟩ := runs_finish hsecond
    rw [List.append_nil]
    exact Or.inr ⟨d, a, hfirst, rfl⟩

end Action

end Rollout
