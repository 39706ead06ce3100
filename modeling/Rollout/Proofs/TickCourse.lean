import Rollout.Proofs.Exchange
import Rollout.Proofs.StepSize

/-!
# The courses of a tick

Everything that a tick can do, with any answers of the scheduler: its exchanges, and what it
leaves of the copy it works on. Later arguments are by cases on these courses and do not open the
actions again.
-/

namespace Rollout

variable {World : Type}

/-! ## Scale steps -/

/-- The exchanges in which a scale step brings the stable instances down to a number. -/
inductive Retirement (d : Deployment) (kept : UInt32) : List (Exchange World) → Prop where
  | unneeded (h : ¬kept < d.stableInstances) : Retirement d kept []
  | retired (h : kept < d.stableInstances) (w : World) :
    Retirement d kept [⟨.setCount d.appId d.previousVersion kept, .ok (), w⟩]

/-- The exchanges in which a scale step moves the new version, and what comes of it. -/
inductive Movement (policy : StepPolicy) (goal : ScaleGoal) (d : Deployment) :
    List (Exchange World) → Outcome ScaleStep → Prop where
  | reached {step : ScaleStep} (htarget : d.deployingInstances = goal.target)
    (hfinished : step.finished = (goal.cap.isSome || d.stableInstances == 0))
    (hatCap : step.atCap = false) : Movement policy goal d [] (d, .ok step)
  | held {step : ScaleStep} (htarget : d.deployingInstances ≠ goal.target)
    (hlimit : d.deployingInstances = goal.limit) (hfinished : step.finished = false)
    (hatCap : step.atCap = true) : Movement policy goal d [] (d, .ok step)
  | failed (htarget : d.deployingInstances ≠ goal.target)
    (hlimit : d.deployingInstances ≠ goal.limit) (e : SchedulerError) (w : World) :
    Movement policy goal d
      [⟨.setCount d.appId d.version (policy.toward goal.limit d.deployingInstances), .error e, w⟩]
      (d, .error (.scheduler e))
  | moved {step : ScaleStep} (htarget : d.deployingInstances ≠ goal.target)
    (hlimit : d.deployingInstances ≠ goal.limit) (hfinished : step.finished = false)
    (hatCap : step.atCap = false) (w : World) :
    Movement policy goal d
      [⟨.setCount d.appId d.version (policy.toward goal.limit d.deployingInstances), .ok (), w⟩]
      ({ d with deployingInstances := policy.toward goal.limit d.deployingInstances }, .ok step)

/-- The courses of a scale step. -/
inductive ScaleCourse (policy : StepPolicy) (goal : ScaleGoal) (d : Deployment) :
    List (Exchange World) → Outcome ScaleStep → Prop where
  | refused {v : Violation} (h : goal.violation? = some v) :
    ScaleCourse policy goal d [] (d, .error (.violation v))
  | unanswered (h : goal.violation? = none) (e : SchedulerError) (w : World) :
    ScaleCourse policy goal d [⟨.query d.appId d.version, .error e, w⟩] (d, .error (.scheduler e))
  | waiting (h : goal.violation? = none) (health : Health)
    (hcovers : health.covers d.deployingInstances = false) (w : World) :
    ScaleCourse policy goal d [⟨.query d.appId d.version, .ok health, w⟩] (d, .ok {})
  | unretired (h : goal.violation? = none) (health : Health)
    (hcovers : health.covers d.deployingInstances = true)
    (hless : d.stableGoal health < d.stableInstances) (e : SchedulerError) (w w' : World) :
    ScaleCourse policy goal d
      [⟨.query d.appId d.version, .ok health, w⟩,
        ⟨.setCount d.appId d.previousVersion (d.stableGoal health), .error e, w'⟩]
      (d, .error (.scheduler e))
  | stepped (h : goal.violation? = none) (health : Health)
    (hcovers : health.covers d.deployingInstances = true) (w : World)
    {retiring moving : List (Exchange World)} {outcome : Outcome ScaleStep}
    (hretiring : Retirement d (d.stableGoal health) retiring)
    (hmoving :
      Movement policy goal { d with stableInstances := d.stableGoal health } moving outcome) :
    ScaleCourse policy goal d (⟨.query d.appId d.version, .ok health, w⟩ :: retiring ++ moving)
      outcome

/-- Moving the new version has no other courses. -/
theorem movement_of_runs {policy : StepPolicy} {goal : ScaleGoal} {retired : Bool}
    {d : Deployment} {trace : List (Exchange World)} {outcome : Outcome ScaleStep}
    (h : (scaleNew policy goal retired d).Runs trace outcome) :
    Movement policy goal d trace outcome := by
  unfold scaleNew at h
  split at h
  · next htarget =>
    obtain ⟨rfl, rfl⟩ := Action.runs_finish h
    exact .reached htarget rfl rfl
  · next htarget =>
    split at h
    · next hlimit =>
      obtain ⟨rfl, rfl⟩ := Action.runs_finish h
      exact .held htarget hlimit rfl rfl
    · next hlimit =>
      rcases Action.runs_ask h with ⟨e, w, rfl, rfl⟩ | ⟨_, w, rest, rfl, hrest⟩
      · exact .failed htarget hlimit e w
      · obtain ⟨rfl, rfl⟩ := Action.runs_finish hrest
        exact .moved htarget hlimit rfl rfl w

/-- A scale step has no other courses. -/
theorem scaleCourse_of_runs {policy : StepPolicy} {goal : ScaleGoal} {d : Deployment}
    {trace : List (Exchange World)} {outcome : Outcome ScaleStep}
    (h : (scaleStep policy goal d).Runs trace outcome) :
    ScaleCourse policy goal d trace outcome := by
  unfold scaleStep at h
  split at h
  · next v hviolation =>
    obtain ⟨rfl, rfl⟩ := Action.runs_fail h
    exact .refused hviolation
  · next hviolation =>
    rcases Action.runs_ask h with ⟨e, w, rfl, rfl⟩ | ⟨health, w, rest, rfl, hrest⟩
    · exact .unanswered hviolation e w
    · split at hrest
      · next hcovers =>
        dsimp only at hrest
        split at hrest
        · next hless =>
          rcases Action.runs_ask hrest with ⟨e, w', rfl, rfl⟩ | ⟨_, w', moving, rfl, hmoving⟩
          · exact .unretired hviolation health hcovers hless e w w'
          · exact .stepped hviolation health hcovers w (.retired hless w')
              (movement_of_runs hmoving)
        · next hless =>
          have hkept : d.stableGoal health = d.stableInstances := by
            have hle := d.stableGoal_le health
            rw [UInt32.lt_iff_toNat_lt] at hless
            rw [← UInt32.toNat_inj]
            omega
          have hmoving := movement_of_runs hrest
          refine .stepped hviolation health hcovers w (.unneeded hless) ?_
          rwa [hkept]
      · next hcovers =>
        obtain ⟨rfl, rfl⟩ := Action.runs_finish hrest
        exact .waiting hviolation health (by simpa using hcovers) w

/-- A scale step changes nothing of the copy but the two counts. -/
theorem ScaleCourse.exists_eq {policy : StepPolicy} {goal : ScaleGoal} {d : Deployment}
    {trace : List (Exchange World)} {outcome : Outcome ScaleStep}
    (h : ScaleCourse policy goal d trace outcome) :
    ∃ deploying stable, outcome.1 =
      { d with deployingInstances := deploying, stableInstances := stable } := by
  cases h with
  | refused h => exact ⟨_, _, rfl⟩
  | unanswered => exact ⟨_, _, rfl⟩
  | waiting => exact ⟨_, _, rfl⟩
  | unretired => exact ⟨_, _, rfl⟩
  | stepped h health hcovers w hretiring hmoving => cases hmoving <;> exact ⟨_, _, rfl⟩

/-- A scale step removes no version. -/
theorem ScaleCourse.not_remove {policy : StepPolicy} {goal : ScaleGoal} {d : Deployment}
    {trace : List (Exchange World)} {outcome : Outcome ScaleStep}
    (h : ScaleCourse policy goal d trace outcome) :
    ∀ e ∈ trace, ∀ appId version, e.call ≠ .remove appId version := by
  cases h with
  | refused => simp
  | unanswered | waiting | unretired => simp
  | stepped _ _ _ _ hretiring hmoving =>
    cases hretiring <;> cases hmoving <;> simp

/-! ## Ticks -/

/-- What a scale tick works toward. -/
def Deployment.fullGoal (d : Deployment) : ScaleGoal where
  target := d.desiredWebInstances
  cap := none

/-- What a canary tick works toward. -/
def Canary.goal (c : Canary) : ScaleGoal where
  target := c.totalInstances
  cap := some c.currentInstanceTarget

/-- The courses of a tick that works on a copy of a record. -/
inductive TickCourse (u : Updater) (d : Deployment) :
    Command → List (Exchange World) → Outcome Unit → Prop where
  | scaleRefused (hphase : d.phase.isInProgress = false) :
    TickCourse u d .scale [] (d, .error (.violation (.wrongPhase "scale" d.phase)))
  | scaleFailed (hphase : d.phase.isInProgress = true) {trace : List (Exchange World)}
    {d' : Deployment} {e : TickError}
    (hstep : ScaleCourse u.policy d.fullGoal (d.setPhase .deploying) trace (d', .error e)) :
    TickCourse u d .scale trace (d', .error e)
  | scaled (hphase : d.phase.isInProgress = true) {trace : List (Exchange World)}
    {d' : Deployment} {step : ScaleStep}
    (hstep : ScaleCourse u.policy d.fullGoal (d.setPhase .deploying) trace (d', .ok step))
    (hfinished : step.finished = false) : TickCourse u d .scale trace (d', .ok ())
  | unfinalized (hphase : d.phase.isInProgress = true) {trace : List (Exchange World)}
    {d' : Deployment} {step : ScaleStep}
    (hstep : ScaleCourse u.policy d.fullGoal (d.setPhase .deploying) trace (d', .ok step))
    (hfinished : step.finished = true) (e : SchedulerError) (w : World) :
    TickCourse u d .scale (trace ++ [⟨.remove d.appId d.previousVersion, .error e, w⟩])
      (d', .error (.scheduler e))
  | finalized (hphase : d.phase.isInProgress = true) {trace : List (Exchange World)}
    {d' : Deployment} {step : ScaleStep}
    (hstep : ScaleCourse u.policy d.fullGoal (d.setPhase .deploying) trace (d', .ok step))
    (hfinished : step.finished = true) (removed : UInt32) (w : World) :
    TickCourse u d .scale (trace ++ [⟨.remove d.appId d.previousVersion, .ok removed, w⟩])
      ({ d' with stableInstances := 0 }.setPhase .deployed, .ok ())
  | canaryIdle (hphase : d.phase = .paused) : TickCourse u d .canary [] (d, .ok ())
  | canaryRefused (hpaused : d.phase ≠ .paused) (hphase : d.phase.isInProgress = false) :
    TickCourse u d .canary [] (d, .error (.violation (.wrongPhase "canary" d.phase)))
  | canaryMissing (hphase : d.phase.isInProgress = true) (hcanary : d.canary = none) :
    TickCourse u d .canary [] (d, .error (.violation .noCanary))
  | canaryFailed (hphase : d.phase.isInProgress = true) {c : Canary} (hcanary : d.canary = some c)
    {trace : List (Exchange World)} {d' : Deployment} {e : TickError}
    (hstep : ScaleCourse u.policy c.goal (d.setPhase .deploying) trace (d', .error e)) :
    TickCourse u d .canary trace (d', .error e)
  | canaried (hphase : d.phase.isInProgress = true) {c : Canary} (hcanary : d.canary = some c)
    {trace : List (Exchange World)} {d' : Deployment} {step : ScaleStep}
    (hstep : ScaleCourse u.policy c.goal (d.setPhase .deploying) trace (d', .ok step)) :
    TickCourse u d .canary trace (u.afterCanaryStep c step d', .ok ())
  | cancelIdle (hphase : d.phase = .canceled) : TickCourse u d .cancel [] (d, .ok ())
  | cancelRefused (hphase : d.phase = .deployed) :
    TickCourse u d .cancel [] (d, .error (.violation (.wrongPhase "cancel" d.phase)))
  | unrestored (hphase : d.phase.isTerminal = false) (e : SchedulerError) (w : World) :
    TickCourse u d .cancel
      [⟨.setCount d.appId d.previousVersion d.originalInstances, .error e, w⟩]
      (d, .error (.scheduler e))
  | unremoved (hphase : d.phase.isTerminal = false) (e : SchedulerError) (w w' : World) :
    TickCourse u d .cancel
      [⟨.setCount d.appId d.previousVersion d.originalInstances, .ok (), w⟩,
        ⟨.remove d.appId d.version, .error e, w'⟩]
      (d, .error (.scheduler e))
  | canceled (hphase : d.phase.isTerminal = false) (removed : UInt32) (w w' : World) :
    TickCourse u d .cancel
      [⟨.setCount d.appId d.previousVersion d.originalInstances, .ok (), w⟩,
        ⟨.remove d.appId d.version, .ok removed, w'⟩]
      ({ d with
          deployingInstances := 0
          stableInstances := d.originalInstances }.setPhase .canceled, .ok ())

/-- A scale step without a cap finishes at the target, when no stable instances are left. -/
theorem ScaleCourse.eq_of_finished {policy : StepPolicy} {target : UInt32} {d d' : Deployment}
    {trace : List (Exchange World)} {step : ScaleStep}
    (h : ScaleCourse policy ⟨target, none⟩ d trace (d', .ok step))
    (hfinished : step.finished = true) :
    d' = { d with deployingInstances := target, stableInstances := 0 } := by
  cases h with
  | waiting => cases hfinished
  | stepped h health hcovers w hretiring hmoving =>
    cases hmoving with
    | reached htarget hstep =>
      rw [hfinished] at hstep
      have hstable : d.stableGoal health = 0 := by simpa using hstep.symm
      have hdeploying : d.deployingInstances = target := htarget
      rw [← hdeploying, ← hstable]
    | held htarget hlimit hstep => simp [hfinished] at hstep
    | moved htarget hlimit hstep => simp [hfinished] at hstep

variable {u : Updater} {d : Deployment} {trace : List (Exchange World)} {outcome : Outcome Unit}

private theorem finalize_eq_ask (hphase : d.phase.isInProgress = true)
    (hreached : d.deployingInstances = d.desiredWebInstances) :
    finalize d = Action.ask d (.remove d.appId d.previousVersion) fun _ =>
      Action.finish ({ d with stableInstances := 0 }.setPhase .deployed) true := by
  rw [finalize, if_pos hphase, if_pos hreached]

/-- A scale tick has no other courses. -/
theorem tickCourse_of_runs_scale (h : (u.scale d).Runs trace outcome) :
    TickCourse u d .scale trace outcome := by
  unfold Updater.scale at h
  split at h
  · next hphase =>
    rcases Action.runs_andThen h with ⟨d', e, hstep, rfl⟩ | ⟨d', step, first, second, rfl, hstep, h⟩
    · exact .scaleFailed hphase (scaleCourse_of_runs hstep)
    · have hcourse := scaleCourse_of_runs hstep
      cases hfinished : step.finished with
      | false =>
        rw [hfinished] at h
        obtain ⟨rfl, rfl⟩ := Action.runs_finish h
        rw [List.append_nil]
        exact .scaled hphase hcourse hfinished
      | true =>
        rw [hfinished] at h
        obtain rfl := hcourse.eq_of_finished hfinished
        rcases Action.runs_andThen_finish h with ⟨d', e, hfinal, rfl⟩ | ⟨d', _, hfinal, rfl⟩
        · rw [finalize_eq_ask rfl rfl] at hfinal
          rcases Action.runs_ask_finish hfinal with ⟨e', w, rfl, heq⟩ | ⟨removed, w, -, heq⟩
          · obtain ⟨rfl, hfailed⟩ := Prod.mk.inj heq
            obtain rfl := Except.error.inj hfailed
            exact .unfinalized hphase hcourse hfinished e' w
          · cases heq
        · rw [finalize_eq_ask rfl rfl] at hfinal
          rcases Action.runs_ask_finish hfinal with ⟨e, w, -, heq⟩ | ⟨removed, w, rfl, heq⟩
          · cases heq
          · obtain ⟨rfl, -⟩ := Prod.mk.inj heq
            exact .finalized hphase hcourse hfinished removed w
  · next hphase =>
    obtain ⟨rfl, rfl⟩ := Action.runs_fail h
    exact .scaleRefused (by simpa using hphase)

/-- A canary tick has no other courses. -/
theorem tickCourse_of_runs_canary (h : (u.canary d).Runs trace outcome) :
    TickCourse u d .canary trace outcome := by
  unfold Updater.canary at h
  split at h
  · next hphase =>
    obtain ⟨rfl, rfl⟩ := Action.runs_finish h
    exact .canaryIdle hphase
  · next hpaused =>
    split at h
    · next hphase =>
      split at h
      · next hcanary =>
        obtain ⟨rfl, rfl⟩ := Action.runs_fail h
        exact .canaryMissing hphase hcanary
      · next c hcanary =>
        rcases Action.runs_andThen_finish h with ⟨d', e, hstep, rfl⟩ | ⟨d', step, hstep, rfl⟩
        · exact .canaryFailed hphase hcanary (scaleCourse_of_runs hstep)
        · exact .canaried hphase hcanary (scaleCourse_of_runs hstep)
    · next hphase =>
      obtain ⟨rfl, rfl⟩ := Action.runs_fail h
      exact .canaryRefused hpaused (by simpa using hphase)

/-- A cancel that is not over asks for the stable instances and then for the removal of the new
ones. -/
theorem cancel_eq_ask (hphase : d.phase.isTerminal = false) :
    cancel d = Action.ask d (.setCount d.appId d.previousVersion d.originalInstances) fun _ =>
      Action.ask d (.remove d.appId d.version) fun _ =>
        Action.finish ({ d with
          deployingInstances := 0
          stableInstances := d.originalInstances }.setPhase .canceled) true := by
  unfold cancel
  split
  · next heq => simp [heq, Phase.isTerminal] at hphase
  · next heq => simp [heq, Phase.isTerminal] at hphase
  · rfl

/-- What a cancel in a phase that is not terminal comes to. -/
theorem tickCourse_of_runs_cancel_active (hphase : d.phase.isTerminal = false)
    (h : (Action.andThen (cancel d) fun d _ => Action.finish d ()).Runs trace outcome) :
    TickCourse u d .cancel trace outcome := by
  rw [cancel_eq_ask hphase] at h
  rcases Action.runs_andThen_finish h with ⟨d', e, hrun, rfl⟩ | ⟨d', _, hrun, rfl⟩
  · rcases Action.runs_ask hrun with ⟨e', w, rfl, heq⟩ | ⟨_, w, rest, rfl, hremove⟩
    · obtain ⟨rfl, hfailed⟩ := Prod.mk.inj heq
      obtain rfl := Except.error.inj hfailed
      exact .unrestored hphase e' w
    · rcases Action.runs_ask_finish hremove with ⟨e', w', rfl, heq⟩ | ⟨removed, w', -, heq⟩
      · obtain ⟨rfl, hfailed⟩ := Prod.mk.inj heq
        obtain rfl := Except.error.inj hfailed
        exact .unremoved hphase e' w w'
      · cases heq
  · rcases Action.runs_ask hrun with ⟨e, w, -, heq⟩ | ⟨_, w, rest, rfl, hremove⟩
    · cases heq
    · rcases Action.runs_ask_finish hremove with ⟨e, w', -, heq⟩ | ⟨removed, w', rfl, heq⟩
      · cases heq
      · obtain ⟨rfl, -⟩ := Prod.mk.inj heq
        exact .canceled hphase removed w w'

/-- A cancel tick has no other courses. -/
theorem tickCourse_of_runs_cancel
    (h : (Action.andThen (cancel d) fun d _ => Action.finish d ()).Runs trace outcome) :
    TickCourse u d .cancel trace outcome := by
  by_cases hcanceled : d.phase = .canceled
  · have hcancel : cancel d = Action.finish d true := by simp only [cancel, hcanceled]
    rw [hcancel] at h
    obtain ⟨rfl, rfl⟩ := Action.runs_finish h
    exact .cancelIdle hcanceled
  · by_cases hdeployed : d.phase = .deployed
    · have hcancel : cancel d = Action.fail d (.violation (.wrongPhase "cancel" d.phase)) := by
        simp only [cancel, hdeployed]
      rw [hcancel] at h
      obtain ⟨rfl, rfl⟩ := Action.runs_fail h
      exact .cancelRefused hdeployed
    · have hphase : d.phase.isTerminal = false := by
        cases hphase : d.phase <;> simp_all [Phase.isTerminal]
      exact tickCourse_of_runs_cancel_active hphase h

/-- Whatever the answers, a tick takes one of its courses. -/
theorem tickCourse_of_runs {command : Command} (h : (u.action command d).Runs trace outcome) :
    TickCourse u d command trace outcome := by
  cases command with
  | scale => exact tickCourse_of_runs_scale h
  | canary => exact tickCourse_of_runs_canary h
  | cancel => exact tickCourse_of_runs_cancel h

end Rollout
