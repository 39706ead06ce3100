import Rollout.Proofs.Advance
import Rollout.Proofs.Census

/-!
# Convergence of a rollout

With a scheduler that never fails and whose instances are healthy at once, the record counts
exactly the instances there are, and every pass gets on. Without a gate the new instances come
up to the desired number and the rollout is finalized. With a gate the counts and the target
climb in turn until the canary pauses; its promotion starts the rest of the way.
-/

namespace Rollout

variable {Rest : Type} {scheduler : Scheduler (Store × Rest)} {census : Census Rest}
  {policy : StepPolicy} {d d' : Deployment} {w w' made : Store × Rest}
  {trace : List (Exchange (Store × Rest))}

/-! ## Scale steps with an exact scheduler -/

/-- There are exactly the instances that a record counts. -/
structure Counted (census : Census Rest) (d : Deployment) (w : Store × Rest) : Prop where
  /-- The new instances are counted. -/
  fresh : census.of w (d.appId, d.version) = d.deployingInstances.toNat
  /-- The stable ones are counted. -/
  stable : census.of w (d.appId, d.previousVersion) = d.stableInstances.toNat

/-- Of records that are alike each counts what the other does. -/
theorem Counted.of_alike (h : Counted census d w) (halike : Alike d d') : Counted census d' w := by
  constructor
  · rw [halike.deploying, Deployment.fresh_of_terms halike.terms]
    exact h.fresh
  · rw [halike.stable, Deployment.replaced_of_terms halike.terms]
    exact h.stable

/-- An exact scheduler finds all instances that a record counts healthy. -/
theorem Scheduler.Exact.covers (h : scheduler.Exact census) (hcounted : Counted census d w)
    {health : Health} (heq : scheduler (.query d.appId d.version) w = (.ok health, w')) :
    health.covers d.deployingInstances = true := by
  have hsize : census.of w (d.appId, d.version) < UInt32.size := by
    rw [hcounted.fresh]
    exact d.deployingInstances.toNat_lt_size
  obtain ⟨hrunning, hhealthy⟩ := h.reports d.appId d.version w health hsize
    (congrArg Prod.fst heq)
  rw [hcounted.fresh] at hrunning hhealthy
  simp only [Health.covers, Bool.and_eq_true, decide_eq_true_eq, UInt32.le_iff_toNat_le]
  omega

/-- A query leaves the instances. -/
theorem Scheduler.Faithful.counted_query (h : scheduler.Faithful census)
    (hcounted : Counted census d w)
    (hversions : d.version ≠ d.previousVersion) {answer : Except SchedulerError Health}
    (heq : scheduler (.query d.appId d.version) w = (answer, w')) : Counted census d w' := by
  have hfresh := h.asks (.query d.appId d.version) w rfl
  have hstable := h.of_other heq (Deployment.fresh_ne_replaced hversions).symm
  rw [heq] at hfresh
  exact ⟨hfresh.trans hcounted.fresh, hstable.trans hcounted.stable⟩

/-- What a scale step comes to when every call is answered and all instances are healthy: the
stable instances that are replaced are retired, and the new ones are moved one step unless they
are at the target or at the cap. -/
inductive FullStep (policy : StepPolicy) (goal : ScaleGoal) (d : Deployment) (kept : UInt32) :
    Deployment → ScaleStep → Prop where
  | reached {step : ScaleStep} (htarget : d.deployingInstances = goal.target)
    (hfinished : step.finished = (goal.cap.isSome || kept == 0)) (hatCap : step.atCap = false) :
    FullStep policy goal d kept { d with stableInstances := kept } step
  | held {step : ScaleStep} (htarget : d.deployingInstances ≠ goal.target)
    (hlimit : d.deployingInstances = goal.limit) (hfinished : step.finished = false)
    (hatCap : step.atCap = true) :
    FullStep policy goal d kept { d with stableInstances := kept } step
  | moved {step : ScaleStep} (htarget : d.deployingInstances ≠ goal.target)
    (hlimit : d.deployingInstances ≠ goal.limit) (hfinished : step.finished = false)
    (hatCap : step.atCap = false) :
    FullStep policy goal d kept
      { d with
        stableInstances := kept
        deployingInstances := policy.toward goal.limit d.deployingInstances } step

/-- After an exact scheduler has retired stable instances the record counts those that are left. -/
theorem Retirement.counted {kept : UInt32} (h : Retirement d kept trace)
    (hless : kept.toNat ≤ d.stableInstances.toNat) (hfaithful : scheduler.Faithful census)
    (hversions : d.version ≠ d.previousVersion) (hmakes : scheduler.Makes w trace made)
    (hcounted : Counted census d w) : Counted census { d with stableInstances := kept } made := by
  cases h with
  | unneeded hnot =>
    obtain rfl := hmakes.nil_inv
    rw [UInt32.lt_iff_toNat_lt] at hnot
    exact ⟨hcounted.fresh, hcounted.stable.trans (by dsimp only; omega)⟩
  | retired =>
    obtain ⟨heq, hmakes⟩ := hmakes.cons_inv
    obtain rfl := hmakes.nil_inv
    have hfresh := hfaithful.of_other heq (Deployment.fresh_ne_replaced hversions)
    exact ⟨hfresh.trans hcounted.fresh, hfaithful.of_setCount heq⟩

/-- After an exact scheduler has moved new instances the record counts them. -/
theorem Movement.counted {goal : ScaleGoal} {step : ScaleStep}
    (h : Movement policy goal d trace (d', .ok step)) (hfaithful : scheduler.Faithful census)
    (hversions : d.version ≠ d.previousVersion) (hmakes : scheduler.Makes w trace made)
    (hcounted : Counted census d w) : Counted census d' made := by
  cases h with
  | reached | held =>
    obtain rfl := hmakes.nil_inv
    exact hcounted
  | moved =>
    obtain ⟨heq, hmakes⟩ := hmakes.cons_inv
    obtain rfl := hmakes.nil_inv
    have hstable := hfaithful.of_other heq (Deployment.fresh_ne_replaced hversions).symm
    exact ⟨hfaithful.of_setCount heq, hstable.trans hcounted.stable⟩

/-- A movement of new instances within the gate is a full pass. -/
theorem Movement.full {goal : ScaleGoal} {kept : UInt32} {outcome : Outcome ScaleStep}
    (h : Movement policy goal { d with stableInstances := kept } trace outcome)
    (hexact : scheduler.Exact census) (hversions : d.version ≠ d.previousVersion)
    (hmakes : scheduler.Makes w trace made)
    (hcounted : Counted census { d with stableInstances := kept } w) :
    ∃ d' step, outcome = (d', .ok step) ∧ FullStep policy goal d kept d' step ∧
      Counted census d' made := by
  have hmoving := h
  cases h with
  | reached htarget hfinished hatCap =>
    have hend := hmoving.counted hexact.toFaithful hversions hmakes hcounted
    exact ⟨_, _, rfl, .reached htarget hfinished hatCap, hend⟩
  | held htarget hlimit hfinished hatCap =>
    have hend := hmoving.counted hexact.toFaithful hversions hmakes hcounted
    exact ⟨_, _, rfl, .held htarget hlimit hfinished hatCap, hend⟩
  | failed =>
    obtain ⟨heq, -⟩ := hmakes.cons_inv
    exact (hexact.reliable.not_error heq).elim
  | moved htarget hlimit hfinished hatCap =>
    have hend := hmoving.counted hexact.toFaithful hversions hmakes hcounted
    exact ⟨_, _, rfl, .moved htarget hlimit hfinished hatCap, hend⟩

/-- A scale step that succeeds leaves what the record then counts. -/
theorem ScaleCourse.counted {goal : ScaleGoal} {step : ScaleStep}
    (h : ScaleCourse policy goal d trace (d', .ok step)) (hfaithful : scheduler.Faithful census)
    (hversions : d.version ≠ d.previousVersion) (hmakes : scheduler.Makes w trace made)
    (hcounted : Counted census d w) : Counted census d' made := by
  cases h with
  | waiting =>
    obtain ⟨heq, hmakes⟩ := hmakes.cons_inv
    obtain rfl := hmakes.nil_inv
    exact hfaithful.counted_query hcounted hversions heq
  | stepped hgoal health hcovers w₁ hretiring hmoving =>
    obtain ⟨heq, hmakes⟩ := Scheduler.Makes.cons_inv hmakes
    obtain ⟨w₂, hretires, hmoves⟩ := hmakes.append_inv
    have hasked := hfaithful.counted_query hcounted hversions heq
    have hretired := hretiring.counted (d.stableGoal_le health) hfaithful hversions hretires hasked
    exact hmoving.counted hfaithful hversions hmoves hretired

/-- With an exact scheduler every scale step goes all the way. -/
theorem ScaleCourse.full {goal : ScaleGoal} {outcome : Outcome ScaleStep}
    (h : ScaleCourse policy goal d trace outcome) (hgoal : goal.violation? = none)
    (hexact : scheduler.Exact census) (hversions : d.version ≠ d.previousVersion)
    (hmakes : scheduler.Makes w trace made) (hcounted : Counted census d w) :
    ∃ kept d' step, outcome = (d', .ok step) ∧ FullStep policy goal d kept d' step ∧
      kept.toNat = min (d.desiredWebInstances.toNat - d.deployingInstances.toNat)
        d.stableInstances.toNat ∧ Counted census d' made := by
  cases h with
  | refused hviolation => simp [hgoal] at hviolation
  | unanswered =>
    obtain ⟨heq, -⟩ := hmakes.cons_inv
    exact (hexact.reliable.not_error heq).elim
  | waiting hgoal health hcovers =>
    obtain ⟨heq, -⟩ := hmakes.cons_inv
    simp [hexact.covers hcounted heq] at hcovers
  | unretired =>
    obtain ⟨-, hmakes⟩ := hmakes.cons_inv
    obtain ⟨heq, -⟩ := hmakes.cons_inv
    exact (hexact.reliable.not_error heq).elim
  | stepped hgoal health hcovers w₁ hretiring hmoving =>
    obtain ⟨heq, hmakes⟩ := Scheduler.Makes.cons_inv hmakes
    obtain ⟨w₂, hretires, hmoves⟩ := hmakes.append_inv
    have hasked := hexact.counted_query hcounted hversions heq
    have hretired := hretiring.counted (d.stableGoal_le health) hexact.toFaithful hversions hretires
      hasked
    obtain ⟨d', step, houtcome, hstep, hend⟩ := hmoving.full hexact hversions hmoves hretired
    exact ⟨_, d', step, houtcome, hstep, Deployment.toNat_stableGoal_of_covers hcovers, hend⟩

/-! ## Ticks with an exact scheduler -/

/-- How often the version being replaced is removed. -/
def removals {World : Type} (d : Deployment) (trace : List (Exchange World)) : Nat :=
  trace.countP fun e => e.call = .remove d.appId d.previousVersion

/-- The removals in two traces add up. -/
theorem removals_append {World : Type} (d : Deployment) (first second : List (Exchange World)) :
    removals d (first ++ second) = removals d first + removals d second :=
  List.countP_append

/-- Which calls are removals follows from the terms. -/
theorem removals_of_terms {World : Type} (h : d'.terms = d.terms)
    (trace : List (Exchange World)) : removals d' trace = removals d trace := by
  have happ : d'.appId = d.appId := congrArg Terms.appId h
  have hprevious : d'.previousVersion = d.previousVersion := congrArg Terms.previousVersion h
  rw [removals, removals, happ, hprevious]

/-- A scale step removes no version. -/
theorem removals_scale {World : Type} {goal : ScaleGoal} {trace : List (Exchange World)}
    {outcome : Outcome ScaleStep} (h : ScaleCourse policy goal d trace outcome)
    (observed : Deployment) : removals observed trace = 0 := by
  refine List.countP_eq_zero.mpr fun e he => ?_
  simpa using h.not_remove e he observed.appId observed.previousVersion

/-- What a pass makes of a deploying record, and how often it removes the old version. -/
inductive FullPass (d : Deployment) : Deployment → Nat → Prop where
  | grown {d' : Deployment} (hcanary : d.canary = none)
    (hrises : d.deployingInstances.toNat < d'.deployingInstances.toNat)
    (hcanary' : d'.canary = none) (hphase : d'.phase = .deploying) : FullPass d d' 0
  | finalized {d' : Deployment} (hcanary : d.canary = none)
    (hdeploying : d'.deployingInstances = d.desiredWebInstances) (hstable : d'.stableInstances = 0)
    (hphase : d'.phase = .deployed) : FullPass d d' 1
  | climbed {d' : Deployment} {c c' : Canary} (hcanary : d.canary = some c)
    (hcanary' : d'.canary = some c') (htotal : c'.totalInstances = c.totalInstances)
    (hrises : d.deployingInstances.toNat + c.currentInstanceTarget.toNat <
      d'.deployingInstances.toNat + c'.currentInstanceTarget.toNat)
    (hphase : d'.phase = .deploying) : FullPass d d' 0
  | paused {d' : Deployment} {c : Canary} (hcanary : d.canary = some c)
    (hdeploying : d'.deployingInstances = c.totalInstances) (hphase : d'.phase = .paused) :
    FullPass d d' 0

/-- A full pass to a record is one to any that is like it and has its phase. -/
theorem FullPass.of_alike {d'' : Deployment} {count : Nat} (h : FullPass d d' count)
    (halike : Alike d' d'') (hphase : d''.phase = d'.phase) : FullPass d d'' count := by
  cases h with
  | grown hcanary hrises hcanary' hphase' =>
    exact .grown hcanary (halike.deploying ▸ hrises) (halike.canary.trans hcanary')
      (hphase.trans hphase')
  | finalized hcanary hdeploying hstable hphase' =>
    exact .finalized hcanary (halike.deploying.trans hdeploying)
      (halike.stable.trans hstable) (hphase.trans hphase')
  | climbed hcanary hcanary' htotal hrises hphase' =>
    exact .climbed hcanary (halike.canary.trans hcanary') htotal (halike.deploying ▸ hrises)
      (hphase.trans hphase')
  | paused hcanary hdeploying hphase' =>
    exact .paused hcanary (halike.deploying.trans hdeploying) (hphase.trans hphase')

section

variable {now : UInt64} {outcome : Outcome Unit}

/-- Without a gate, a step that has not finished has started new instances. -/
theorem FullStep.grown {kept : UInt32} {d₁ : Deployment} {step : ScaleStep}
    (h : FullStep policy d.fullGoal (d.setPhase .deploying) kept d₁ step)
    (hkept : kept.toNat =
      min (d.desiredWebInstances.toNat - d.deployingInstances.toNat) d.stableInstances.toNat)
    (hfinished : step.finished = false) (hcanary : d.canary = none) (hgated : Gated d) :
    FullPass d d₁ 0 := by
  have hwithin := hgated.within
  rw [Deployment.limit_of_none hcanary] at hwithin
  cases h with
  | reached htarget hstep =>
    have htarget : d.deployingInstances = d.desiredWebInstances := htarget
    have hzero : kept = 0 := by
      rw [← UInt32.toNat_inj, hkept, htarget]
      simp
    simp [hfinished, hzero] at hstep
  | held htarget hlimit => exact absurd hlimit htarget
  | moved htarget =>
    have hne : d.deployingInstances.toNat ≠ d.desiredWebInstances.toNat := toNat_ne.mp htarget
    have hlt : d.deployingInstances.toNat < d.desiredWebInstances.toNat := by omega
    obtain ⟨hrises, -⟩ := policy.toward_of_lt hlt
    exact .grown hcanary hrises hcanary rfl

/-- With a gate, a step starts new instances, raises the target or pauses the canary. -/
theorem FullStep.climbed {kept : UInt32} {d₁ : Deployment} {step : ScaleStep} {c : Canary}
    (h : FullStep policy c.goal (d.setPhase .deploying) kept d₁ step)
    (hcanary : d.canary = some c) (hgated : Gated d) :
    FullPass d (Updater.afterCanaryStep ⟨policy, now⟩ c step d₁) 0 := by
  have hwithin := hgated.within
  have htarget := hgated.target c hcanary
  rw [Deployment.limit_of_some hcanary] at hwithin
  cases h with
  | reached hreached hfinished =>
    have hfinished : step.finished = true := hfinished
    rw [Updater.afterCanaryStep, if_pos hfinished]
    exact .paused hcanary hreached rfl
  | held hbelow hheld hfinished hatCap =>
    have hheld : d.deployingInstances = c.currentInstanceTarget := hheld
    have hbelow : d.deployingInstances.toNat ≠ c.totalInstances.toNat := toNat_ne.mp hbelow
    have hnext := c.toNat_nextTarget policy htarget
    have hdistance := toNat_sub htarget
    have hleft : 0 < (c.totalInstances - c.currentInstanceTarget).toNat := by
      rw [hheld] at hbelow
      omega
    have hsize := policy.size_pos hleft
    have hraised : d.canary.map (fun other =>
        { other with currentInstanceTarget := c.nextTarget policy }) =
        some { c with currentInstanceTarget := c.nextTarget policy } := by
      rw [hcanary, Option.map_some]
    rw [Updater.afterCanaryStep, if_neg (by simp [hfinished]), if_pos hatCap]
    exact .climbed hcanary hraised rfl (by dsimp only [Deployment.setPhase]; omega) rfl
  | moved hbelow hmoved hfinished hatCap =>
    have hmoved : d.deployingInstances.toNat ≠ c.currentInstanceTarget.toNat :=
      toNat_ne.mp hmoved
    have hlt : d.deployingInstances.toNat < c.currentInstanceTarget.toNat := by omega
    obtain ⟨hrises, -⟩ := policy.toward_of_lt hlt
    rw [Updater.afterCanaryStep, if_neg (by simp [hfinished]), if_neg (by simp [hatCap])]
    exact .climbed hcanary hcanary rfl (Nat.add_lt_add_right hrises _) rfl

/-- What a canary tick does after its step leaves the counts. -/
theorem Counted.afterCanaryStep (h : Counted census d w) (u : Updater) (c : Canary)
    (step : ScaleStep) : Counted census (u.afterCanaryStep c step d) w := by
  unfold Updater.afterCanaryStep
  split
  · exact ⟨h.fresh, h.stable⟩
  · split
    · exact ⟨h.fresh, h.stable⟩
    · exact h

/-- The removal that ends a rollout leaves what the record then counts. -/
theorem Counted.finalized {removed : UInt32} (h : Counted census d w)
    (hfaithful : scheduler.Faithful census) (hversions : d.version ≠ d.previousVersion)
    (heq : scheduler (.remove d.appId d.previousVersion) w = (.ok removed, w')) :
    Counted census ({ d with stableInstances := 0 }.setPhase .deployed) w' := by
  constructor
  · have hfresh := hfaithful.of_other heq (Deployment.fresh_ne_replaced hversions)
    exact hfresh.trans h.fresh
  · have hremoved := hfaithful.done (.remove d.appId d.previousVersion) w 0 removed rfl
      (congrArg Prod.fst heq)
    rwa [heq] at hremoved

/-- A scale tick with an exact scheduler succeeds and makes a full pass. -/
theorem TickCourse.full_scale (hcourse : TickCourse ⟨policy, now⟩ d .scale trace outcome)
    (hphase : d.phase = .deploying) (hcanary : d.canary = none) (hgated : Gated d)
    (hexact : scheduler.Exact census) (hversions : d.version ≠ d.previousVersion)
    (hmakes : scheduler.Makes w trace made) (hcounted : Counted census d w) :
    ∃ d₁, outcome = (d₁, .ok ()) ∧ FullPass d d₁ (removals d trace) ∧ Counted census d₁ made := by
  have hstart : Counted census (d.setPhase .deploying) w := ⟨hcounted.fresh, hcounted.stable⟩
  cases hcourse with
  | scaleRefused hrefused => simp [hphase, Phase.isInProgress] at hrefused
  | scaleFailed _ hstep =>
    obtain ⟨_, _, _, houtcome, -⟩ := hstep.full rfl hexact hversions hmakes hstart
    simp at houtcome
  | @scaled _ _ d₁ step hstep hfinished =>
    obtain ⟨kept, d₂, step₂, houtcome, hfull, hkept, hend⟩ :=
      hstep.full rfl hexact hversions hmakes hstart
    obtain ⟨rfl, rfl⟩ : d₁ = d₂ ∧ step = step₂ := by simpa using houtcome
    rw [removals_scale hstep]
    exact ⟨d₁, rfl, hfull.grown hkept hfinished hcanary hgated, hend⟩
  | unfinalized _ hstep =>
    obtain ⟨between, -, hremoves⟩ := hmakes.append_inv
    exact (hexact.reliable.not_error hremoves.cons_inv.1).elim
  | finalized _ hstep hfinished =>
    obtain ⟨between, hscales, hremoves⟩ := hmakes.append_inv
    obtain ⟨heq, hnone⟩ := hremoves.cons_inv
    obtain rfl := hnone.nil_inv
    have hscaled := hstep.full rfl hexact hversions hscales hstart
    obtain rfl := hstep.eq_of_finished hfinished
    obtain ⟨kept, d₂, step₂, houtcome, -, -, hend⟩ := hscaled
    obtain ⟨rfl, -⟩ := Prod.mk.inj houtcome
    refine ⟨_, rfl, ?_, hend.finalized hexact.toFaithful hversions heq⟩
    rw [removals_append, removals_scale hstep, removals, List.countP_singleton]
    simpa using FullPass.finalized hcanary rfl rfl rfl

/-- A canary tick with an exact scheduler succeeds and makes a full pass. -/
theorem TickCourse.full_canary (hcourse : TickCourse ⟨policy, now⟩ d .canary trace outcome)
    (hphase : d.phase = .deploying) {c : Canary} (hcanary : d.canary = some c) (hgated : Gated d)
    (hexact : scheduler.Exact census) (hversions : d.version ≠ d.previousVersion)
    (hmakes : scheduler.Makes w trace made) (hcounted : Counted census d w) :
    ∃ d₁, outcome = (d₁, .ok ()) ∧ FullPass d d₁ (removals d trace) ∧ Counted census d₁ made := by
  have hstart : Counted census (d.setPhase .deploying) w := ⟨hcounted.fresh, hcounted.stable⟩
  have hgoal := Canary.violation?_goal (hgated.target c hcanary)
  cases hcourse with
  | canaryIdle hpaused => simp [hphase] at hpaused
  | canaryRefused _ hrefused => simp [hphase, Phase.isInProgress] at hrefused
  | canaryMissing _ hmissing => simp [hcanary] at hmissing
  | canaryFailed _ hcanary₁ hstep =>
    obtain rfl := Option.some.inj (hcanary.symm.trans hcanary₁)
    obtain ⟨_, _, _, houtcome, -⟩ := hstep.full hgoal hexact hversions hmakes hstart
    simp at houtcome
  | @canaried _ c₁ hcanary₁ _ d₁ step hstep =>
    obtain rfl : c = c₁ := Option.some.inj (hcanary.symm.trans hcanary₁)
    obtain ⟨kept, d₂, step₂, houtcome, hfull, -, hend⟩ :=
      hstep.full hgoal hexact hversions hmakes hstart
    obtain ⟨rfl, rfl⟩ : d₁ = d₂ ∧ step = step₂ := by simpa using houtcome
    rw [removals_scale hstep]
    exact ⟨_, rfl, hfull.climbed hcanary hgated, hend.afterCanaryStep ..⟩

end

/-! ## Passes -/

/-- Passes for one deployment at several times, one after another. -/
def Updater.drives (policy : StepPolicy) (scheduler : Scheduler (Store × Rest)) (id : String) :
    List UInt64 → Store × Rest → Store × Rest
  | [], w => w
  | now :: times, w => drives policy scheduler id times (drive ⟨policy, now⟩ scheduler id w)

/-- The exchanges of these passes. -/
def Updater.drivesTrace (policy : StepPolicy) (scheduler : Scheduler (Store × Rest))
    (id : String) : List UInt64 → Store × Rest → List (Exchange (Store × Rest))
  | [], _ => []
  | now :: times, w => driveTrace ⟨policy, now⟩ scheduler id w ++
    drivesTrace policy scheduler id times (drive ⟨policy, now⟩ scheduler id w)

/-- The record of a deployment that counts the instances there are. -/
structure Tracked (census : Census Rest) (id : String) (d : Deployment) (w : Store × Rest) :
    Prop where
  /-- The record is in the store. -/
  held : w.1.Holds id d
  /-- A version is not replaced by itself. -/
  versions : d.version ≠ d.previousVersion
  /-- The counts lie within the gate. -/
  gated : Gated d
  /-- They are the numbers of instances. -/
  counted : Counted census d w

namespace Tracked

variable {id : String}

/-- A pass that the phase does not call for does nothing. -/
theorem idle (h : Tracked census id d w) (hspares : scheduler.Spares id)
    (hcommand : d.command? = none) (u : Updater) :
    u.drive scheduler id w = w ∧ u.driveTrace scheduler id w = [] := by
  rcases u.drive_spec hspares h.held with ⟨-, htrace, hdrive⟩ | ⟨command, _, _, hsome, -⟩
  · exact ⟨hdrive, htrace⟩
  · simp [hcommand] at hsome

/-- Passes for a deployment that has no command do nothing, however many. -/
theorem idle_drives (h : Tracked census id d w) (hspares : scheduler.Spares id)
    (hcommand : d.command? = none) (policy : StepPolicy) (times : List UInt64) :
    Updater.drives policy scheduler id times w = w ∧
      Updater.drivesTrace policy scheduler id times w = [] := by
  induction times with
  | nil => exact ⟨rfl, rfl⟩
  | cons now times ih =>
    obtain ⟨hdrive, htrace⟩ := h.idle hspares hcommand ⟨policy, now⟩
    rw [Updater.drives, Updater.drivesTrace, hdrive, htrace]
    exact ih

/-- A pass over a deploying record gets on. -/
theorem pass (h : Tracked census id d w) (hexact : scheduler.Exact census)
    (hphase : d.phase = .deploying) (policy : StepPolicy) (now : UInt64) :
    ∃ d', Tracked census id d' (Updater.drive ⟨policy, now⟩ scheduler id w) ∧
      d'.terms = d.terms ∧
      FullPass d d' (removals d (Updater.driveTrace ⟨policy, now⟩ scheduler id w)) := by
  rcases Updater.drive_spec ⟨policy, now⟩ (hexact.spares_id id) h.held with
    ⟨hnone, -⟩ | ⟨command, outcome, made, hcommand, hcourse, hmakes, hheld, hinstances, hrest⟩
  · simp [Deployment.command?, hphase] at hnone
  · have hmove := RecordMove.tick now hcommand hcourse
    have hterms := hmove.terms_eq
    have hfull : ∃ d₁, outcome = (d₁, .ok ()) ∧
        FullPass d d₁ (removals d (Updater.driveTrace ⟨policy, now⟩ scheduler id w)) ∧
        Counted census d₁ made := by
      cases command with
      | scale =>
        exact hcourse.full_scale hphase (Deployment.command?_eq_scale hcommand).2 h.gated hexact
          h.versions hmakes h.counted
      | canary =>
        obtain ⟨-, c, hcanary⟩ := Deployment.command?_eq_canary hcommand
        exact hcourse.full_canary hphase hcanary h.gated hexact h.versions hmakes h.counted
      | cancel => simp [Deployment.command?_eq_cancel hcommand] at hphase
    obtain ⟨d₁, rfl, hpass, hcounted⟩ := hfull
    have halike : Alike d₁ (Updater.settled ⟨policy, now⟩ command d d (d₁, .ok ())) :=
      Updater.alike_settled_ok (Alike.refl d₁)
    refine ⟨_, ⟨hheld, ?_, (hmove.advance h.gated).gated h.gated, ?_⟩, hterms,
      hpass.of_alike halike (Updater.phase_settled_ok ..)⟩
    · exact Deployment.versions_of_terms hterms h.versions
    · have hend := hcounted.of_alike halike
      exact ⟨(census.of_eq hinstances hrest _).trans hend.fresh,
        (census.of_eq hinstances hrest _).trans hend.stable⟩

end Tracked

/-! ## Rollouts without a gate -/

/-- A rollout without a gate that is under way. -/
structure Growing (census : Census Rest) (id : String) (d : Deployment) (w : Store × Rest) :
    Prop extends Tracked census id d w where
  /-- It is deploying. -/
  phase : d.phase = .deploying
  /-- It has no gate. -/
  canary : d.canary = none

/-- A rollout that is finalized. -/
structure Finished (census : Census Rest) (id : String) (d : Deployment) (w : Store × Rest) :
    Prop extends Tracked census id d w where
  /-- It is deployed. -/
  phase : d.phase = .deployed
  /-- All new instances are there. -/
  deploying : d.deployingInstances = d.desiredWebInstances
  /-- No stable ones are. -/
  stable : d.stableInstances = 0

section

variable {id : String}

/-- A rollout under way has no more new instances than are desired. -/
theorem Growing.deploying_le (h : Growing census id d w) :
    d.deployingInstances.toNat ≤ d.desiredWebInstances.toNat := by
  have hwithin := h.gated.within
  rwa [Deployment.limit_of_none h.canary] at hwithin

private theorem Finished.command?_eq_none (h : Finished census id d w) : d.command? = none := by
  simp only [Deployment.command?, h.phase]

/-- A pass starts new instances, or finalizes the rollout. -/
theorem Growing.pass (h : Growing census id d w) (hexact : scheduler.Exact census)
    (policy : StepPolicy) (now : UInt64) :
    ∃ d', d'.terms = d.terms ∧
      ((Growing census id d' (Updater.drive ⟨policy, now⟩ scheduler id w) ∧
          d.deployingInstances.toNat < d'.deployingInstances.toNat ∧
          removals d (Updater.driveTrace ⟨policy, now⟩ scheduler id w) = 0) ∨
        (Finished census id d' (Updater.drive ⟨policy, now⟩ scheduler id w) ∧
          removals d (Updater.driveTrace ⟨policy, now⟩ scheduler id w) = 1)) := by
  obtain ⟨d', htracked, hterms, hpass⟩ := h.toTracked.pass hexact h.phase policy now
  have hdesired := Deployment.desired_of_terms hterms
  refine ⟨d', hterms, ?_⟩
  generalize removals d (Updater.driveTrace ⟨policy, now⟩ scheduler id w) = count at hpass ⊢
  cases hpass with
  | grown _ hrises hcanary hphase => exact Or.inl ⟨⟨htracked, hphase, hcanary⟩, hrises, rfl⟩
  | finalized _ hdeploying hstable hphase =>
    exact Or.inr ⟨⟨htracked, hphase, hdeploying.trans hdesired.symm, hstable⟩, rfl⟩
  | climbed hcanary => simp [h.canary] at hcanary
  | paused hcanary => simp [h.canary] at hcanary

/-- At any time a rollout without a gate is under way or finalized. -/
theorem Growing.drives (h : Growing census id d w) (hexact : scheduler.Exact census)
    (policy : StepPolicy) (times : List UInt64) : ∃ d', d'.terms = d.terms ∧
      (Growing census id d' (Updater.drives policy scheduler id times w) ∨
        Finished census id d' (Updater.drives policy scheduler id times w)) := by
  induction times generalizing d w with
  | nil => exact ⟨d, rfl, Or.inl h⟩
  | cons now times ih =>
    obtain ⟨d₁, hterms, ⟨hgrowing, -, -⟩ | ⟨hfinished, -⟩⟩ := h.pass hexact policy now
    · obtain ⟨d₂, hterms₂, hend⟩ := ih hgrowing
      exact ⟨d₂, hterms₂.trans hterms, hend⟩
    · have hidle := (hfinished.idle_drives (hexact.spares_id id) hfinished.command?_eq_none policy
        times).1
      refine ⟨d₁, hterms, Or.inr ?_⟩
      rw [Updater.drives, hidle]
      exact hfinished

/-- As long as instances are missing, each pass starts some. -/
theorem Growing.rises (h : Growing census id d w) (hexact : scheduler.Exact census)
    (policy : StepPolicy) (times : List UInt64) :
    ∃ d', (Updater.drives policy scheduler id times w).1.deployment id = .ok d' ∧
      (d'.deployingInstances < d.desiredWebInstances → ∀ now, ∃ d'',
        (Updater.drive ⟨policy, now⟩ scheduler id
          (Updater.drives policy scheduler id times w)).1.deployment id = .ok d'' ∧
            d'.deployingInstances < d''.deployingInstances) := by
  obtain ⟨d', hterms, hend⟩ := h.drives hexact policy times
  have hdesired := Deployment.desired_of_terms hterms
  rcases hend with hend | hend
  · refine ⟨d', hend.held.deployment, fun hless now => ?_⟩
    obtain ⟨d'', hterms', ⟨hgrows, hrises, -⟩ | ⟨hfinishes, -⟩⟩ := hend.pass hexact policy now
    · exact ⟨d'', hgrows.held.deployment, UInt32.lt_iff_toNat_lt.mpr hrises⟩
    · have hdesired' := Deployment.desired_of_terms hterms'
      refine ⟨d'', hfinishes.held.deployment, ?_⟩
      rw [hfinishes.deploying, hdesired', hdesired]
      exact hless
  · refine ⟨d', hend.held.deployment, fun hless => ?_⟩
    rw [hend.deploying, hdesired] at hless
    exact absurd hless (UInt32.lt_irrefl _)

/-- A rollout without a gate takes at most one pass for each missing instance, and one more to
be finalized. -/
theorem Growing.finishes (h : Growing census id d w) (hexact : scheduler.Exact census)
    (policy : StepPolicy) (times : List UInt64)
    (hlength : d.desiredWebInstances.toNat + 1 ≤ times.length + d.deployingInstances.toNat) :
    ∃ d', Finished census id d' (Updater.drives policy scheduler id times w) ∧
      d'.terms = d.terms ∧ removals d (Updater.drivesTrace policy scheduler id times w) = 1 := by
  induction times generalizing d w with
  | nil =>
    have hle := h.deploying_le
    simp only [List.length_nil] at hlength
    omega
  | cons now times ih =>
    rw [Updater.drives, Updater.drivesTrace, removals_append]
    obtain ⟨d₁, hterms, ⟨hgrowing, hrises, hnone⟩ | ⟨hfinished, hone⟩⟩ :=
      h.pass hexact policy now
    · have hdesired := Deployment.desired_of_terms hterms
      have hshorter : d₁.desiredWebInstances.toNat + 1 ≤
          times.length + d₁.deployingInstances.toNat := by
        simp only [List.length_cons] at hlength
        rw [hdesired]
        omega
      obtain ⟨d₂, hend, hterms₂, hcount⟩ := ih hgrowing hshorter
      rw [removals_of_terms hterms] at hcount
      exact ⟨d₂, hend, hterms₂.trans hterms, by omega⟩
    · obtain ⟨hdrives, htrace⟩ := hfinished.idle_drives (hexact.spares_id id)
        hfinished.command?_eq_none policy times
      rw [hdrives, htrace]
      exact ⟨d₁, hfinished, hterms, hone⟩

/-! ## Rollouts with a gate -/

/-- A canary that is under way. -/
structure Climbing (census : Census Rest) (id : String) (d : Deployment) (c : Canary)
    (w : Store × Rest) : Prop extends Tracked census id d w where
  /-- It is deploying. -/
  phase : d.phase = .deploying
  /-- It has this gate. -/
  canary : d.canary = some c

/-- A canary that has come up to its total and pauses. -/
structure Paused (census : Census Rest) (id : String) (d : Deployment) (total : UInt32)
    (w : Store × Rest) : Prop extends Tracked census id d w where
  /-- It pauses. -/
  phase : d.phase = .paused
  /-- It has come up to its total. -/
  deploying : d.deployingInstances = total

private theorem Paused.command?_eq_none {total : UInt32} (h : Paused census id d total w) :
    d.command? = none := by
  simp only [Deployment.command?, h.phase]

/-- A pass starts new instances or raises the target, or it pauses the canary. -/
theorem Climbing.pass {c : Canary} (h : Climbing census id d c w)
    (hexact : scheduler.Exact census) (policy : StepPolicy) (now : UInt64) :
    removals d (Updater.driveTrace ⟨policy, now⟩ scheduler id w) = 0 ∧
      ∃ d', d'.terms = d.terms ∧
        ((∃ c', Climbing census id d' c' (Updater.drive ⟨policy, now⟩ scheduler id w) ∧
          c'.totalInstances = c.totalInstances ∧
          d.deployingInstances.toNat + c.currentInstanceTarget.toNat <
            d'.deployingInstances.toNat + c'.currentInstanceTarget.toNat) ∨
        Paused census id d' c.totalInstances (Updater.drive ⟨policy, now⟩ scheduler id w)) := by
  obtain ⟨d', htracked, hterms, hpass⟩ := h.toTracked.pass hexact h.phase policy now
  generalize removals d (Updater.driveTrace ⟨policy, now⟩ scheduler id w) = count at hpass ⊢
  cases hpass with
  | grown hcanary => simp [h.canary] at hcanary
  | finalized hcanary => simp [h.canary] at hcanary
  | climbed hcanary hcanary' htotal hrises hphase =>
    obtain rfl := Option.some.inj (h.canary.symm.trans hcanary)
    exact ⟨rfl, d', hterms, Or.inl ⟨_, ⟨htracked, hphase, hcanary'⟩, htotal, hrises⟩⟩
  | paused hcanary hdeploying hphase =>
    obtain rfl := Option.some.inj (h.canary.symm.trans hcanary)
    exact ⟨rfl, d', hterms, Or.inr ⟨htracked, hphase, hdeploying⟩⟩

/-- The count and the target together climb to twice the total, one pass at least for each step,
and then the canary pauses. -/
theorem Climbing.pauses {c : Canary} (h : Climbing census id d c w)
    (hexact : scheduler.Exact census) (policy : StepPolicy) (times : List UInt64)
    (hlength : 2 * c.totalInstances.toNat + 1 ≤
      times.length + (d.deployingInstances.toNat + c.currentInstanceTarget.toNat)) :
    ∃ d', Paused census id d' c.totalInstances (Updater.drives policy scheduler id times w) ∧
      d'.terms = d.terms ∧ removals d (Updater.drivesTrace policy scheduler id times w) = 0 := by
  induction times generalizing d c w with
  | nil =>
    have hwithin := h.gated.within
    have htarget := h.gated.target c h.canary
    rw [Deployment.limit_of_some h.canary] at hwithin
    simp only [List.length_nil] at hlength
    omega
  | cons now times ih =>
    rw [Updater.drives, Updater.drivesTrace, removals_append]
    obtain ⟨hnone, d₁, hterms, ⟨c₁, hclimbing, htotal, hrises⟩ | hpaused⟩ :=
      h.pass hexact policy now
    · have hshorter : 2 * c₁.totalInstances.toNat + 1 ≤
          times.length + (d₁.deployingInstances.toNat + c₁.currentInstanceTarget.toNat) := by
        simp only [List.length_cons] at hlength
        rw [htotal]
        omega
      obtain ⟨d₂, hend, hterms₂, hcount⟩ := ih hclimbing hshorter
      rw [removals_of_terms hterms] at hcount
      rw [htotal] at hend
      exact ⟨d₂, hend, hterms₂.trans hterms, by omega⟩
    · obtain ⟨hdrives, htrace⟩ := hpaused.idle_drives (hexact.spares_id id)
        hpaused.command?_eq_none policy times
      rw [hdrives, htrace]
      exact ⟨d₁, hpaused, hterms, hnone⟩

private theorem Paused.promoted_eq {total : UInt32} (h : Paused census id d total w) :
    Operator.promoted d = ({ d with canary := none }.setPhase .deploying).nextRevision := by
  simp only [Operator.promoted, Deployment.promote?, if_pos h.phase, Option.getD_some]

/-- A promotion begins the rest of the rollout. -/
theorem Paused.promoted {total : UInt32} (h : Paused census id d total w) :
    Growing census id (Operator.promoted d) ((Operator.promote w.1 id).2, w.2) := by
  have hid := (Operator.id_promoted d).trans h.held.own
  rw [Operator.promote_eq_write h.held]
  rw [h.promoted_eq] at hid ⊢
  have hgated : Gated ({ d with canary := none }.setPhase .deploying).nextRevision :=
    ⟨Nat.le_trans h.gated.within h.gated.limit_le, (by rintro _ ⟨⟩), (by rintro _ ⟨⟩)⟩
  exact ⟨⟨w.1.holds_write_of_id hid, h.versions, hgated, h.counted.fresh, h.counted.stable⟩, rfl,
    rfl⟩

/-- After its promotion a canary takes at most one pass for each missing instance, and one more to
be finalized. -/
theorem Paused.finishes {total : UInt32} (h : Paused census id d total w)
    (hexact : scheduler.Exact census) (policy : StepPolicy) (times : List UInt64)
    (hlength : d.desiredWebInstances.toNat - total.toNat + 1 ≤ times.length) :
    let promoted := ((Operator.promote w.1 id).2, w.2)
    ∃ d', Finished census id d' (Updater.drives policy scheduler id times promoted) ∧
      d'.terms = d.terms ∧
      removals d (Updater.drivesTrace policy scheduler id times promoted) = 1 := by
  intro promoted
  have hterms := Operator.terms_promoted d
  have hdesired := Deployment.desired_of_terms hterms
  have hreached : (Operator.promoted d).deployingInstances = total := by
    rw [h.promoted_eq]
    exact h.deploying
  obtain ⟨d', hend, hterms', hcount⟩ := h.promoted.finishes hexact policy times (by
    rw [hdesired, hreached]
    omega)
  rw [removals_of_terms hterms] at hcount
  exact ⟨d', hend, hterms'.trans hterms, hcount⟩

end

/-! ## The whole way -/

/-- The end of a rollout. There are as many new instances as are desired and none of the version
they replace, the record says the same, and passes do nothing any more. -/
structure Complete (scheduler : Scheduler (Store × Rest)) (policy : StepPolicy)
    (census : Census Rest) (request : Request) (w : Store × Rest) : Prop where
  /-- The record says that the rollout is deployed and counts what was desired. -/
  record : ∃ d, w.1.deployment request.id = .ok d ∧ d.phase = .deployed ∧
    d.deployingInstances = request.desiredWebInstances ∧ d.stableInstances = 0
  /-- As many new instances are there. -/
  fresh : census.of w (request.appId, request.version) = request.desiredWebInstances.toNat
  /-- The version that they replace has none. -/
  replaced : census.of w (request.appId, request.previousVersion) = 0
  /-- No pass does anything any more, at whatever time it comes. -/
  idle : ∀ now, Updater.drive ⟨policy, now⟩ scheduler request.id w = w ∧
    Updater.driveTrace ⟨policy, now⟩ scheduler request.id w = []

/-- The end of a rollout is complete. -/
theorem Finished.complete {request : Request} {now : UInt64} (h : Finished census request.id d w)
    (hexact : scheduler.Exact census) (policy : StepPolicy)
    (hterms : d.terms = (Deployment.begin request now).terms) :
    Complete scheduler policy census request w := by
  have hdesired : d.desiredWebInstances = request.desiredWebInstances :=
    congrArg Terms.desiredWebInstances hterms
  have hfresh := h.counted.fresh
  have hreplaced := h.counted.stable
  rw [Deployment.fresh_of_terms hterms, h.deploying, hdesired] at hfresh
  rw [Deployment.replaced_of_terms hterms, h.stable] at hreplaced
  exact ⟨⟨d, h.held.deployment, h.phase, h.deploying.trans hdesired, h.stable⟩, hfresh, hreplaced,
    fun now => h.idle (hexact.spares_id request.id) h.command?_eq_none ⟨policy, now⟩⟩

/-- With a scheduler that never fails and whose instances are healthy, every rollout converges
under every policy. Without a canary each pass starts new instances until there are as many as
are desired, and one more pass finalizes the rollout. With a canary it pauses within two passes
for each instance of the canary and one more, stays paused until it is promoted, and then needs
one pass for each missing instance and one more. The version that is replaced is removed exactly
once. -/
theorem Updater.converges {request : Request} {now : UInt64} {d₀ : Deployment}
    {store created : Store} {rest : Rest} (hnew : Deployment.new request now = .ok d₀)
    (hcreate : store.create d₀ = .ok created) (hexact : scheduler.Exact census)
    (hold : census.of (created, rest) (request.appId, request.previousVersion) =
      request.originalInstances.toNat)
    (hnone : census.of (created, rest) (request.appId, request.version) = 0)
    (policy : StepPolicy) :
    (request.canaryTotalInstances = none →
      (∀ times, ∃ d, (drives policy scheduler request.id times (created, rest)).1.deployment
          request.id = .ok d ∧
        (d.deployingInstances < request.desiredWebInstances → ∀ now, ∃ d',
          (drive ⟨policy, now⟩ scheduler request.id
            (drives policy scheduler request.id times (created, rest))).1.deployment
              request.id = .ok d' ∧ d.deployingInstances < d'.deployingInstances)) ∧
      ∀ times : List UInt64, request.desiredWebInstances.toNat + 1 ≤ times.length →
        Complete scheduler policy census request
          (drives policy scheduler request.id times (created, rest)) ∧
        removals d₀ (drivesTrace policy scheduler request.id times (created, rest)) = 1) ∧
    ∀ total, request.canaryTotalInstances = some total →
      ∀ times : List UInt64, 2 * total.toNat + 1 ≤ times.length →
        let paused := drives policy scheduler request.id times (created, rest)
        let promoted := ((Operator.promote paused.1 request.id).2, paused.2)
        (∃ d, paused.1.deployment request.id = .ok d ∧ d.phase = .paused) ∧
        (∀ now, drive ⟨policy, now⟩ scheduler request.id paused = paused ∧
          driveTrace ⟨policy, now⟩ scheduler request.id paused = []) ∧
        ∀ further : List UInt64,
          request.desiredWebInstances.toNat - total.toNat + 1 ≤ further.length →
            Complete scheduler policy census request
              (drives policy scheduler request.id further promoted) ∧
            removals d₀ (drivesTrace policy scheduler request.id times (created, rest) ++
              drivesTrace policy scheduler request.id further promoted) = 1 := by
  obtain ⟨rfl, hsound⟩ := Deployment.new_eq_ok hnew
  have htracked : Tracked census request.id (Deployment.begin request now) (created, rest) :=
    ⟨Store.holds_create hcreate, hsound.versions, gated_begin hsound now, hnone, hold⟩
  constructor
  · intro hcanary
    have hgrowing : Growing census request.id (Deployment.begin request now) (created, rest) :=
      ⟨htracked, rfl, by simp only [Deployment.begin, hcanary, Option.map_none]⟩
    refine ⟨hgrowing.rises hexact policy, fun times hlength => ?_⟩
    obtain ⟨d, hend, hterms, hcount⟩ := hgrowing.finishes hexact policy times hlength
    exact ⟨hend.complete hexact policy hterms, hcount⟩
  · intro total hcanary times hlength paused promoted
    have hclimbing : Climbing census request.id (Deployment.begin request now) ⟨total, 0⟩
        (created, rest) :=
      ⟨htracked, rfl, by simp only [Deployment.begin, hcanary, Option.map_some]⟩
    obtain ⟨d, hpaused, hterms, hbefore⟩ := hclimbing.pauses hexact policy times
      (Nat.le_trans hlength (Nat.le_add_right _ _))
    have hdesired : d.desiredWebInstances = request.desiredWebInstances :=
      congrArg Terms.desiredWebInstances hterms
    have hspares := hexact.spares_id request.id
    refine ⟨⟨d, hpaused.held.deployment, hpaused.phase⟩,
      fun now => hpaused.idle hspares hpaused.command?_eq_none ⟨policy, now⟩, ?_⟩
    intro further hfurther
    rw [← hdesired] at hfurther
    obtain ⟨d', hend, hterms', hafter⟩ := hpaused.finishes hexact policy further hfurther
    rw [removals_of_terms hterms] at hafter
    refine ⟨hend.complete hexact policy (hterms'.trans hterms), ?_⟩
    rw [removals_append]
    exact congrArg₂ Nat.add hbefore hafter

/-- A canary of one instance, of two desired ones, that is promoted after three passes. -/
theorem converges_after_promotion :
    let created := Store.empty.write (Deployment.begin .canaryOfOne 0)
    let paused := Updater.drives (.fraction 50) Scheduler.counting Request.canaryOfOne.id [1, 2, 3]
      (created, Request.canaryOfOne.counts)
    let promoted := ((Operator.promote paused.1 Request.canaryOfOne.id).2, paused.2)
    (∃ d, paused.1.deployment Request.canaryOfOne.id = .ok d ∧ d.phase = .paused) ∧
      Complete Scheduler.counting (.fraction 50) Scheduler.numbers .canaryOfOne
        (Updater.drives (.fraction 50) Scheduler.counting Request.canaryOfOne.id [4, 5]
          promoted) := by
  have hnew : Deployment.new .canaryOfOne 0 = .ok (Deployment.begin .canaryOfOne 0) := rfl
  have hcreate : Store.empty.create (Deployment.begin .canaryOfOne 0) =
    .ok (Store.empty.write (Deployment.begin .canaryOfOne 0)) := rfl
  have hconverges := Updater.converges hnew hcreate Scheduler.exact_counting
    (Request.counts_previousVersion _ _) (Request.counts_version (by decide) _) (.fraction 50)
  obtain ⟨hpaused, -, hpromoted⟩ := hconverges.2 1 rfl [1, 2, 3] (Nat.le_refl 3)
  exact ⟨hpaused, (hpromoted [4, 5] (Nat.le_refl 2)).1⟩

end Rollout
