import Rollout.Proofs.Advance
import Rollout.Proofs.Census
import Rollout.Proofs.TickOutcome
import Rollout.Scheduler.Interference

/-!
# Guarded calls

A removal cannot be taken back, so a tick removes a version only behind a guard. The version being
replaced goes only when all new instances that are desired were found running and healthy in the
same tick and no stable ones are left. The new version goes only when the stable instances have
just been restored. A tick that finds some new instances missing makes no other call, and no call
follows one that has failed. All of this holds for any record and any answers.
-/

namespace Rollout

variable {World : Type}

/-! ## Traces -/

/-- No call has failed but the last. -/
def Unbroken (trace : List (Exchange World)) : Prop :=
  ∀ earlier e later, trace = earlier ++ e :: later → later ≠ [] → e.Answered

/-- Where every call has been answered none has failed too early. -/
theorem unbroken_of_answered {trace : List (Exchange World)} (h : ∀ e ∈ trace, e.Answered) :
    Unbroken trace := by
  rintro earlier e later rfl -
  exact h e (List.mem_append_right _ List.mem_cons_self)

/-- The last exchange is split off, or one before it. -/
theorem last_or_mem_of_split {trace earlier later : List (Exchange World)} {last e : Exchange World}
    (h : trace ++ [last] = earlier ++ e :: later) :
    (earlier = trace ∧ e = last ∧ later = []) ∨ e ∈ trace := by
  rcases List.eq_nil_or_concat later with rfl | ⟨init, final, rfl⟩
  · left
    obtain ⟨rfl, hlast⟩ := List.append_inj' h rfl
    exact ⟨rfl, (List.cons.inj hlast).1.symm, rfl⟩
  · right
    rw [List.concat_eq_append, ← List.cons_append, ← List.append_assoc] at h
    obtain ⟨rfl, -⟩ := List.append_inj' h rfl
    exact List.mem_append_right _ List.mem_cons_self

private theorem unbroken_singleton (e : Exchange World) : Unbroken [e] := by
  intro earlier e' later heq hlater
  have heq : [] ++ [e] = earlier ++ e' :: later := heq
  rcases last_or_mem_of_split heq with ⟨-, -, hnil⟩ | hmem
  · exact absurd hnil hlater
  · cases hmem

/-- Exchanges that were all answered may come before any others. -/
theorem Unbroken.after {first second : List (Exchange World)} (h : Unbroken second)
    (hfirst : ∀ e ∈ first, e.Answered) : Unbroken (first ++ second) := by
  intro earlier e later heq hlater
  rcases List.append_eq_append_iff.mp heq with ⟨between, -, hsecond⟩ | ⟨rest, hearlier, hrest⟩
  · exact h between e later hsecond hlater
  · cases rest with
    | nil => exact h [] e later hrest.symm hlater
    | cons x rest =>
      obtain ⟨rfl, -⟩ := List.cons.inj hrest
      refine hfirst e ?_
      rw [hearlier]
      exact List.mem_append_right _ List.mem_cons_self

/-- The counts that are asked for in a trace, in order. -/
def counts (trace : List (Exchange World)) : List Call :=
  (trace.map Exchange.call).filter fun c => c.kind = .setCount

private theorem counts_append (first second : List (Exchange World)) :
    counts (first ++ second) = counts first ++ counts second := by
  rw [counts, List.map_append, List.filter_append]
  rfl

/-! ## Guards -/

/-- What a tick has done before it removes the version being replaced. -/
structure Superseded (d : Deployment) (command : Command) (earlier : List (Exchange World)) :
    Prop where
  /-- It is a scale tick. -/
  command : command = .scale
  /-- The rollout is in progress. -/
  phase : d.phase = .deploying ∨ d.phase = .failed
  /-- The record counts all new instances that are desired. -/
  converged : d.deployingInstances = d.desiredWebInstances
  /-- The tick has been told that as many run and are healthy. -/
  healthy : ∃ health w, ⟨.query d.appId d.version, .ok health, w⟩ ∈ earlier ∧
    d.desiredWebInstances ≤ health.running ∧ d.desiredWebInstances ≤ health.healthy
  /-- No stable ones were left, or the tick has brought them down to none. -/
  retired : d.stableInstances = 0 ∨
    ∃ w, ⟨.setCount d.appId d.previousVersion 0, .ok (), w⟩ ∈ earlier

/-- What a tick has done before it removes the new version. -/
structure Restored (d : Deployment) (command : Command) (earlier : List (Exchange World)) :
    Prop where
  /-- It is a cancel tick. -/
  command : command = .cancel
  /-- The rollout has not ended. -/
  phase : d.phase ≠ .deployed ∧ d.phase ≠ .canceled
  /-- The one call before has brought the stable instances back, and was answered. -/
  restored : ∃ w, earlier = [⟨.setCount d.appId d.previousVersion d.originalInstances, .ok (), w⟩]

/-- The two versions that a tick may remove, each behind its guard. -/
inductive MayRemove (d : Deployment) (command : Command) (earlier : List (Exchange World)) :
    String × String → Prop where
  | replaced (h : Superseded d command earlier) :
    MayRemove d command earlier (d.appId, d.previousVersion)
  | fresh (h : Restored d command earlier) : MayRemove d command earlier (d.appId, d.version)

/-- What a command works toward. -/
def Deployment.goal? (d : Deployment) : Command → Option ScaleGoal
  | .scale => some d.fullGoal
  | .canary => d.canary.map Canary.goal
  | .cancel => none

/-- A count that has moved, toward a limit and not beyond it. -/
def Nearer (current limit next : UInt32) : Prop :=
  current < next ∧ next ≤ limit ∨ limit ≤ next ∧ next < current

/-- The calls of a tick, whatever it is answered. -/
structure Guarded (d : Deployment) (command : Command) (trace : List (Exchange World)) : Prop where
  /-- A removal is the last call, and its guard has come before it. -/
  removals : ∀ earlier e later appId version, trace = earlier ++ e :: later →
    e.call = .remove appId version → later = [] ∧ MayRemove d command earlier (appId, version)
  /-- A tick that is told of too few new instances leaves it at that. -/
  waits : ∀ health w, ⟨.query d.appId d.version, .ok health, w⟩ ∈ trace →
    health.running < d.deployingInstances ∨ health.healthy < d.deployingInstances →
      trace = [⟨.query d.appId d.version, .ok health, w⟩]
  /-- Stable instances are retired at most once, and then the new ones are moved at most once. -/
  counts : command ≠ .cancel → ∃ retired moved : Option UInt32,
    counts trace = (retired.map (.setCount d.appId d.previousVersion)).toList ++
      (moved.map (.setCount d.appId d.version)).toList ∧
    (∀ n ∈ retired, n < d.stableInstances) ∧
    ∀ n ∈ moved, ∃ goal ∈ d.goal? command, Nearer d.deployingInstances goal.limit n
  /-- No call follows one that has failed. -/
  unbroken : Unbroken trace

/-! ## Scale steps -/

variable {policy : StepPolicy} {goal : ScaleGoal} {d d' : Deployment}
  {trace : List (Exchange World)}

/-- A step toward a limit comes nearer to it. -/
theorem StepPolicy.nearer_toward (policy : StepPolicy) {limit current : UInt32}
    (h : current ≠ limit) : Nearer current limit (policy.toward limit current) := by
  have hne := toNat_ne.mp h
  simp only [Nearer, UInt32.lt_iff_toNat_lt, UInt32.le_iff_toNat_le]
  by_cases hlt : current.toNat < limit.toNat
  · exact Or.inl (policy.toward_of_lt hlt)
  · exact Or.inr (policy.toward_of_gt (by omega))

private theorem Health.not_covers {health : Health} {expected : UInt32}
    (h : health.running < expected ∨ health.healthy < expected) :
    health.covers expected = false := by
  simp only [covers, Bool.and_eq_false_iff, decide_eq_false_iff_not, UInt32.not_le]
  exact h

/-- Retiring asks for at most one count, of the version being replaced and below its present one. -/
theorem Retirement.setCounts {kept : UInt32} (h : Retirement d kept trace) :
    (∃ retired : Option UInt32,
      counts trace = (retired.map (.setCount d.appId d.previousVersion)).toList ∧
        ∀ n ∈ retired, n < d.stableInstances) ∧
    ∀ e ∈ trace, e.call.kind = .setCount ∧ e.Answered := by
  cases h with
  | unneeded => exact ⟨⟨none, rfl, by simp⟩, by simp⟩
  | retired hless w =>
    refine ⟨⟨some kept, rfl, ?_⟩, ?_⟩
    · rintro _ ⟨⟩
      exact hless
    · simp [Call.kind, Exchange.Answered]

/-- Moving asks for at most one count, of the new version and nearer to the limit. -/
theorem Movement.setCounts {outcome : Outcome ScaleStep}
    (h : Movement policy goal d trace outcome) :
    (∃ moved : Option UInt32,
      counts trace = (moved.map (.setCount d.appId d.version)).toList ∧
        ∀ n ∈ moved, Nearer d.deployingInstances goal.limit n) ∧
    (∀ e ∈ trace, e.call.kind = .setCount) ∧ Unbroken trace := by
  cases h with
  | reached | held => exact ⟨⟨none, rfl, by simp⟩, by simp, unbroken_of_answered (by simp)⟩
  | failed _ hlimit | moved _ hlimit =>
    refine ⟨⟨some _, rfl, ?_⟩, by simp [Call.kind], unbroken_singleton _⟩
    rintro _ ⟨⟩
    exact policy.nearer_toward hlimit

/-- A scale step asks for at most one count of each version, and for the stable ones first. -/
theorem ScaleCourse.setCounts {outcome : Outcome ScaleStep}
    (h : ScaleCourse policy goal d trace outcome) : ∃ retired moved : Option UInt32,
    counts trace = (retired.map (.setCount d.appId d.previousVersion)).toList ++
      (moved.map (.setCount d.appId d.version)).toList ∧
    (∀ n ∈ retired, n < d.stableInstances) ∧
    ∀ n ∈ moved, Nearer d.deployingInstances goal.limit n := by
  cases h with
  | refused | unanswered | waiting => exact ⟨none, none, rfl, by simp, by simp⟩
  | unretired _ health _ hless =>
    refine ⟨some (d.stableGoal health), none, rfl, ?_, by simp⟩
    rintro _ ⟨⟩
    exact hless
  | stepped _ _ _ w hretiring hmoving =>
    obtain ⟨⟨retired, hretired, hless⟩, -⟩ := hretiring.setCounts
    obtain ⟨⟨moved, hmoved, hnearer⟩, -⟩ := hmoving.setCounts
    refine ⟨retired, moved, ?_, hless, hnearer⟩
    rw [List.cons_append, ← hretired, ← hmoved, ← counts_append]
    rfl

/-- A scale step asks first. What is told of too few new instances ends it, unfinished. -/
theorem ScaleCourse.waits {outcome : Outcome ScaleStep}
    (h : ScaleCourse policy goal d trace outcome)
    {health : Health} {w : World} (hmem : ⟨.query d.appId d.version, .ok health, w⟩ ∈ trace)
    (hfew : health.covers d.deployingInstances = false) :
    trace = [⟨.query d.appId d.version, .ok health, w⟩] ∧ outcome = (d, .ok {}) := by
  cases h with
  | refused => cases hmem
  | unanswered => simp at hmem
  | waiting => exact ⟨congrArg (fun e => [e]) (List.mem_singleton.mp hmem).symm, rfl⟩
  | unretired _ told hcovers =>
    have htold : health = told := by
      simp at hmem
      exact hmem.1
    rw [htold, hcovers] at hfew
    cases hfew
  | stepped _ told hcovers _ hretiring hmoving =>
    have hcounts := List.forall_mem_append.mpr
      ⟨fun e he => (hretiring.setCounts.2 e he).1, hmoving.setCounts.2.1⟩
    rcases List.mem_cons.mp hmem with heq | hlater
    · have htold : health = told := by
        simp at heq
        exact heq.1
      rw [htold, hcovers] at hfew
      cases hfew
    · cases hcounts _ hlater

/-- A scale step makes no call after one that has failed. -/
theorem ScaleCourse.unbroken {outcome : Outcome ScaleStep}
    (h : ScaleCourse policy goal d trace outcome) : Unbroken trace := by
  cases h with
  | refused => exact unbroken_of_answered (List.forall_mem_nil _)
  | unanswered | waiting => exact unbroken_singleton _
  | unretired _ health _ _ _ w =>
    exact (unbroken_singleton _).after (List.forall_mem_singleton.mpr ⟨health, rfl⟩)
  | stepped _ health _ w hretiring hmoving =>
    refine hmoving.setCounts.2.2.after (List.forall_mem_cons.mpr ⟨⟨health, rfl⟩, fun e he => ?_⟩)
    exact (hretiring.setCounts.2 e he).2

/-- All calls of a scale step that succeeds were answered. -/
theorem ScaleCourse.answered {step : ScaleStep}
    (h : ScaleCourse policy goal d trace (d', .ok step)) : ∀ e ∈ trace, e.Answered := by
  cases h with
  | waiting => simp [Exchange.Answered]
  | stepped _ health _ w hretiring hmoving =>
    refine List.forall_mem_append.mpr ⟨List.forall_mem_cons.mpr ⟨⟨health, rfl⟩, fun e he => ?_⟩, ?_⟩
    · exact (hretiring.setCounts.2 e he).2
    · cases hmoving <;> simp [Exchange.Answered]

/-- A scale step without a cap that finishes has found all instances of its target healthy, and
leaves no stable ones. -/
theorem ScaleCourse.finishes {target : UInt32} {step : ScaleStep}
    (h : ScaleCourse policy ⟨target, none⟩ d trace (d', .ok step))
    (hfinished : step.finished = true) :
    d.deployingInstances = target ∧
      (∃ health w, ⟨.query d.appId d.version, .ok health, w⟩ ∈ trace ∧
        target ≤ health.running ∧ target ≤ health.healthy) ∧
      (d.stableInstances = 0 ∨
        ∃ w, ⟨.setCount d.appId d.previousVersion 0, .ok (), w⟩ ∈ trace) := by
  cases h with
  | waiting => cases hfinished
  | stepped _ health hcovers w hretiring hmoving =>
    cases hmoving with
    | held htarget hlimit hstep | moved htarget hlimit hstep => simp [hfinished] at hstep
    | reached htarget hstep =>
      have htarget : d.deployingInstances = target := htarget
      have hkept : d.stableGoal health = 0 := by
        rw [hfinished] at hstep
        simpa using hstep.symm
      refine ⟨htarget, ⟨health, w, List.mem_cons_self, ?_⟩, ?_⟩
      · rw [htarget] at hcovers
        simpa [Health.covers] using hcovers
      · rw [hkept] at hretiring
        cases hretiring with
        | unneeded hless =>
          left
          rw [UInt32.lt_iff_toNat_lt] at hless
          rw [← UInt32.toNat_inj]
          have hzero : (0 : UInt32).toNat = 0 := rfl
          omega
        | retired hless w' => exact Or.inr ⟨w', by simp⟩

/-! ## Ticks -/

/-- A rollout is in progress while it is deploying or has failed. -/
theorem Phase.inProgress_iff {phase : Phase} :
    phase.isInProgress = true ↔ phase = .deploying ∨ phase = .failed := by
  cases phase <;> simp [isInProgress]

/-- The calls of a tick that makes none. -/
theorem guarded_nil (d : Deployment) (command : Command) :
    Guarded d command ([] : List (Exchange World)) where
  removals earlier e later _ _ heq := by simp at heq
  waits _ _ hmem := by cases hmem
  counts _ := ⟨none, none, rfl, by simp, by simp⟩
  unbroken := unbroken_of_answered (List.forall_mem_nil _)

/-- The calls of a tick that ends with its scale step. -/
theorem ScaleCourse.guarded {command : Command} {outcome : Outcome ScaleStep}
    (h : ScaleCourse policy goal (d.setPhase .deploying) trace outcome)
    (hgoal : goal ∈ d.goal? command) : Guarded d command trace where
  removals earlier e later appId version heq hremove := by
    have hmem : e ∈ trace := heq ▸ List.mem_append_right _ List.mem_cons_self
    exact absurd hremove (h.not_remove e hmem appId version)
  waits health w hmem hfew := (h.waits hmem (Health.not_covers hfew)).1
  counts _ := by
    obtain ⟨retired, moved, hcounts, hretired, hmoved⟩ := h.setCounts
    exact ⟨retired, moved, hcounts, hretired, fun n hn => ⟨goal, hgoal, hmoved n hn⟩⟩
  unbroken := h.unbroken

/-- The calls of a tick that goes on to remove the version being replaced. -/
theorem ScaleCourse.guarded_finish {step : ScaleStep}
    (h : ScaleCourse policy d.fullGoal (d.setPhase .deploying) trace (d', .ok step))
    (hfinished : step.finished = true) (hphase : d.phase.isInProgress = true)
    (answer : Except SchedulerError UInt32) (w : World) :
    Guarded d .scale (trace ++ [⟨.remove d.appId d.previousVersion, answer, w⟩]) where
  removals earlier e later appId version heq hremove := by
    rcases last_or_mem_of_split heq with ⟨rfl, rfl, rfl⟩ | hmem
    · obtain ⟨happ, hversion⟩ := Call.remove.inj hremove
      obtain ⟨hconverged, hhealthy, hretired⟩ := h.finishes hfinished
      rw [← happ, ← hversion]
      exact ⟨rfl, .replaced
        ⟨rfl, Phase.inProgress_iff.mp hphase, hconverged, hhealthy, hretired⟩⟩
    · exact absurd hremove (h.not_remove e hmem appId version)
  waits health w' hmem hfew := by
    have hmem : ⟨.query d.appId d.version, .ok health, w'⟩ ∈ trace := by simpa using hmem
    obtain ⟨-, hwaiting⟩ := h.waits hmem (Health.not_covers hfew)
    obtain ⟨-, hstep⟩ := Prod.mk.inj hwaiting
    rw [Except.ok.inj hstep] at hfinished
    cases hfinished
  counts _ := by
    obtain ⟨retired, moved, hcounts, hretired, hmoved⟩ := h.setCounts
    refine ⟨retired, moved, ?_, hretired, fun n hn => ⟨d.fullGoal, rfl, hmoved n hn⟩⟩
    rw [counts_append, hcounts]
    exact List.append_nil _
  unbroken := (unbroken_singleton _).after h.answered

/-- The calls of a cancel: the stable instances are restored before the new ones are removed. -/
theorem guarded_cancel (hphase : d.phase.isTerminal = false) (w : World)
    (answer : Except SchedulerError UInt32) (w' : World) :
    Guarded d .cancel ([⟨.setCount d.appId d.previousVersion d.originalInstances, .ok (), w⟩] ++
      [⟨.remove d.appId d.version, answer, w'⟩]) where
  removals earlier e later appId version heq hremove := by
    rcases last_or_mem_of_split heq with ⟨rfl, rfl, rfl⟩ | hmem
    · obtain ⟨happ, hversion⟩ := Call.remove.inj hremove
      rw [← happ, ← hversion]
      refine ⟨rfl, .fresh ⟨rfl, ?_, w, rfl⟩⟩
      constructor
      · intro heq
        simp [heq, Phase.isTerminal] at hphase
      · intro heq
        simp [heq, Phase.isTerminal] at hphase
    · obtain rfl := List.mem_singleton.mp hmem
      cases hremove
  waits health w'' hmem := by simp at hmem
  counts hforward := absurd rfl hforward
  unbroken := (unbroken_singleton _).after (List.forall_mem_singleton.mpr ⟨(), rfl⟩)

/-- The call of a cancel that fails to restore the stable instances. -/
theorem guarded_unrestored (d : Deployment) (e : SchedulerError) (w : World) :
    Guarded d .cancel [⟨.setCount d.appId d.previousVersion d.originalInstances, .error e, w⟩] where
  removals earlier x later appId version heq hremove := by
    have hmem : x ∈ earlier ++ x :: later := List.mem_append_right _ List.mem_cons_self
    rw [← heq] at hmem
    obtain rfl := List.mem_singleton.mp hmem
    cases hremove
  waits health w' hmem := by simp at hmem
  counts hforward := absurd rfl hforward
  unbroken := unbroken_singleton _

/-- Whatever it is answered, a tick keeps to its guards. -/
theorem TickCourse.guarded {u : Updater} {command : Command} {outcome : Outcome Unit}
    (h : TickCourse u d command trace outcome) : Guarded d command trace := by
  cases h with
  | scaleRefused | canaryIdle | canaryRefused | canaryMissing | cancelIdle | cancelRefused =>
    exact guarded_nil d _
  | scaleFailed _ hstep | scaled _ hstep => exact hstep.guarded rfl
  | unfinalized hphase hstep hfinished e w => exact hstep.guarded_finish hfinished hphase _ w
  | finalized hphase hstep hfinished removed w => exact hstep.guarded_finish hfinished hphase _ w
  | canaryFailed _ hcanary hstep | canaried _ hcanary hstep =>
    refine hstep.guarded ?_
    exact Option.mem_map_of_mem Canary.goal hcanary
  | unrestored _ e w => exact guarded_unrestored d e w
  | unremoved hphase e w w' => exact guarded_cancel hphase w _ w'
  | canceled hphase removed w w' => exact guarded_cancel hphase w _ w'

/-- **Destructive calls are guarded.** Whatever record a tick reads, and however its calls are
answered, it removes the version being replaced only at the end of a rollout that it has found
converged and healthy and without stable instances, and the new version only right after it has
restored the stable instances. -/
theorem Updater.removals_guarded {Rest : Type} (u : Updater) (scheduler : Scheduler (Store × Rest))
    {id : String} (command : Command) {w : Store × Rest} {d : Deployment}
    (hread : w.1.deployment id = .ok d) :
    Guarded d command (u.tickTrace scheduler id command w) := by
  rw [u.tickTrace_of_read scheduler command hread]
  exact (tickCourse_of_runs ((u.action command d).runs_trace scheduler w)).guarded

/-- A small rollout before its last tick, with one stable instance left. -/
def Deployment.almostDone : Deployment :=
  { Deployment.begin .canaryOfOne 0 with
    canary := none
    deployingInstances := 2
    stableInstances := 1 }

/-- The last tick of a rollout retires the stable instance that is left, and only then removes its
version. -/
theorem Updater.removals_guarded_finish :
    let rule : Interference.Rule := ⟨none, 0, none, [], none, some ⟨2, 2⟩, true⟩
    let scheduler := (LocalScheduler.mk true 0).scheduler.interfered
    let w : Store × Interference.Log := (Store.empty.write .almostDone, ⟨[], [rule]⟩)
    let trace := tickTrace ⟨.fixed 1, 5⟩ scheduler "shop-2" .scale w
    w.1.deployment "shop-2" = .ok .almostDone ∧
      trace.map Exchange.call =
        [.query "shop" "2", .setCount "shop" "1" 0, .remove "shop" "1"] ∧
      Guarded .almostDone .scale trace := by
  intro rule scheduler w
  have hread : w.1.deployment "shop-2" = .ok .almostDone := (Store.empty.holds_write _).deployment
  have hlog : w.2 = ⟨[], [rule]⟩ := rfl
  -- The store is left open from here on, so that the check does not read its texts.
  clear_value w
  obtain ⟨store, log⟩ := w
  obtain rfl : log = ⟨[], [rule]⟩ := hlog
  refine ⟨hread, ?_, removals_guarded _ _ _ hread⟩
  rw [tickTrace_of_read _ _ _ hread]
  rfl

end Rollout
