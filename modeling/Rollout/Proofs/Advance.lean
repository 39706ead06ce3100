import Rollout.Proofs.DriverRun

/-!
# Advances of a rollout

What the moves of a run make of the counts and of the canary gate. The counts always lie within
one another: the new instances within the target of the gate, the target within its total, and
the total within the desired number.
-/

namespace Rollout

/-! ## The gate -/

/-- The number that new instances may come up to: the target of a canary gate, or else the
desired number. -/
def Deployment.limit (d : Deployment) : UInt32 :=
  (d.canary.map Canary.currentInstanceTarget).getD d.desiredWebInstances

/-- Without a gate the limit is the desired number. -/
theorem Deployment.limit_of_none {d : Deployment} (h : d.canary = none) :
    d.limit = d.desiredWebInstances := by
  rw [limit, h]
  rfl

/-- A gate is the limit. -/
theorem Deployment.limit_of_some {d : Deployment} {c : Canary} (h : d.canary = some c) :
    d.limit = c.currentInstanceTarget := by
  rw [limit, h]
  rfl

/-- The counts of a deployment lie within one another, up to the desired number. -/
structure Gated (d : Deployment) : Prop where
  /-- There are no more new instances than the gate lets through. -/
  within : d.deployingInstances.toNat ≤ d.limit.toNat
  /-- The target of a gate is within its total. -/
  target : ∀ c ∈ d.canary, c.currentInstanceTarget.toNat ≤ c.totalInstances.toNat
  /-- Its total is within what is desired. -/
  total : ∀ c ∈ d.canary, c.totalInstances.toNat ≤ d.desiredWebInstances.toNat

/-- Two records of a rollout with the same counts and the same gate. -/
structure Alike (d d' : Deployment) : Prop where
  /-- They fix the same things. -/
  terms : d'.terms = d.terms
  /-- They count the same new instances. -/
  deploying : d'.deployingInstances = d.deployingInstances
  /-- They count the same stable ones. -/
  stable : d'.stableInstances = d.stableInstances
  /-- They have the same gate. -/
  canary : d'.canary = d.canary
  /-- Their canary has last converged at the same time. -/
  lastHealthyAt : d'.lastHealthyAt = d.lastHealthyAt

variable {d d' : Deployment}

/-- A record is like itself. -/
theorem Alike.refl (d : Deployment) : Alike d d :=
  ⟨rfl, rfl, rfl, rfl, rfl⟩

/-- What is like a record that is like another is like that one too. -/
theorem Alike.trans {d'' : Deployment} (h : Alike d d') (h' : Alike d' d'') : Alike d d'' :=
  ⟨h'.terms.trans h.terms, h'.deploying.trans h.deploying, h'.stable.trans h.stable,
    h'.canary.trans h.canary, h'.lastHealthyAt.trans h.lastHealthyAt⟩

/-- Records that are alike replace the same number of instances. -/
theorem Alike.original (h : Alike d d') : d'.originalInstances = d.originalInstances :=
  Deployment.original_of_terms h.terms

/-- Records that are alike aim at the same number of instances. -/
theorem Alike.desired (h : Alike d d') : d'.desiredWebInstances = d.desiredWebInstances :=
  Deployment.desired_of_terms h.terms

/-- A count within the limit is within the gate, as long as the gate stays. -/
theorem Gated.within_limit (h : Gated d) (hwithin : d'.deployingInstances.toNat ≤ d.limit.toNat)
    (hcanary : d'.canary = d.canary) (hdesired : d'.desiredWebInstances = d.desiredWebInstances) :
    Gated d' where
  within := by
    rw [Deployment.limit, hcanary, hdesired]
    exact hwithin
  target := by
    rw [hcanary]
    exact h.target
  total := by
    rw [hcanary, hdesired]
    exact h.total

/-- Whether the counts lie within one another is seen from what alike records share. -/
theorem Alike.gated (h : Alike d d') (hgated : Gated d) : Gated d' :=
  hgated.within_limit (h.deploying ▸ hgated.within) h.canary h.desired

/-- New instances are never more than are desired. -/
theorem Gated.limit_le (h : Gated d) : d.limit.toNat ≤ d.desiredWebInstances.toNat := by
  cases hcanary : d.canary with
  | none => exact Nat.le_of_eq (congrArg UInt32.toNat (Deployment.limit_of_none hcanary))
  | some c =>
    have htarget := h.target c hcanary
    have htotal := h.total c hcanary
    rw [Deployment.limit_of_some hcanary]
    omega

/-- The goal of a gate whose target is within its total breaks no rule. -/
theorem Canary.violation?_goal {c : Canary}
    (h : c.currentInstanceTarget.toNat ≤ c.totalInstances.toNat) : c.goal.violation? = none := by
  have hnot : ¬c.totalInstances < c.currentInstanceTarget := by
    rw [UInt32.lt_iff_toNat_lt]
    omega
  exact if_neg hnot

/-! ## One scale step -/

/-- What a scale step within the gate makes of the two counts. -/
structure Progress (policy : StepPolicy) (d : Deployment) (goal : ScaleGoal) (step : ScaleStep)
    (deploying stable : UInt32) : Prop where
  /-- The new instances do not become fewer. -/
  rises : d.deployingInstances.toNat ≤ deploying.toNat
  /-- They stay within the limit. -/
  within : deploying.toNat ≤ d.limit.toNat
  /-- The stable instances do not become more. -/
  retires : stable.toNat ≤ d.stableInstances.toNat
  /-- What is missing of the new instances stays there in stable ones, as far as there are any. -/
  keeps : min (d.desiredWebInstances.toNat - d.deployingInstances.toNat)
    d.stableInstances.toNat ≤ stable.toNat
  /-- Only a step of the new version can bring the sum beyond the desired number. -/
  sum : deploying.toNat + stable.toNat ≤
    max (d.deployingInstances.toNat + d.stableInstances.toNat)
      (d.desiredWebInstances.toNat + policy.size (d.limit - d.deployingInstances))
  /-- A step has finished where the target was reached before. -/
  finished : step.finished = true → d.deployingInstances = goal.target ∧ deploying = goal.target
  /-- A step is at the cap where the limit was reached before. -/
  atCap : step.atCap = true → d.deployingInstances = d.limit ∧ deploying = d.limit

/-- A scale step within the gate that does not fail changes nothing but the two counts, and makes
progress with them. -/
theorem ScaleCourse.progress {World : Type} {policy : StepPolicy} {goal : ScaleGoal}
    {trace : List (Exchange World)} {step : ScaleStep}
    (h : ScaleCourse policy goal d trace (d', .ok step)) (hgated : Gated d)
    (hlimit : goal.limit = d.limit) :
    ∃ deploying stable, Progress policy d goal step deploying stable ∧
      d' = { d with deployingInstances := deploying, stableInstances := stable } := by
  have hwithin := hgated.within
  have hdesired := hgated.limit_le
  cases h with
  | waiting =>
    refine ⟨d.deployingInstances, d.stableInstances, ?_, rfl⟩
    exact ⟨Nat.le_refl _, hwithin, Nat.le_refl _, Nat.min_le_right _ _, Nat.le_max_left _ _,
      by simp, by simp⟩
  | stepped hgoal health hcovers w hretiring hmoving =>
    have hstable := Deployment.toNat_stableGoal_of_covers hcovers
    have hkeeps := Nat.le_of_eq hstable.symm
    have hless := d.stableGoal_le health
    cases hmoving with
    | reached htarget hfinished hatCap =>
      refine ⟨d.deployingInstances, d.stableGoal health, ?_, rfl⟩
      exact ⟨Nat.le_refl _, hwithin, hless, hkeeps, by omega, fun _ => ⟨htarget, htarget⟩,
        by simp [hatCap]⟩
    | held htarget hheld hfinished hatCap =>
      refine ⟨d.deployingInstances, d.stableGoal health, ?_, rfl⟩
      have hheld : d.deployingInstances = d.limit := Eq.trans hheld hlimit
      exact ⟨Nat.le_refl _, hwithin, hless, hkeeps, by omega, by simp [hfinished],
        fun _ => ⟨hheld, hheld⟩⟩
    | moved htarget hmoved hfinished hatCap =>
      rw [hlimit] at hmoved ⊢
      have hne : d.deployingInstances.toNat ≠ d.limit.toNat := toNat_ne.mp hmoved
      have hlt : d.deployingInstances.toNat < d.limit.toNat := by omega
      obtain ⟨hrises, hbound⟩ := policy.toward_of_lt hlt
      have hsize := policy.toNat_toward_of_lt hlt
      refine ⟨_, d.stableGoal health, ?_, rfl⟩
      exact ⟨Nat.le_of_lt hrises, hbound, hless, hkeeps, by dsimp only; omega, by simp [hfinished],
        by simp [hatCap]⟩

/-- The phase does not matter for the counts. -/
theorem Progress.of_setPhase {policy : StepPolicy} {goal : ScaleGoal} {phase : Phase}
    {step : ScaleStep} {deploying stable : UInt32}
    (h : Progress policy (d.setPhase phase) goal step deploying stable) :
    Progress policy d goal step deploying stable :=
  ⟨h.rises, h.within, h.retires, h.keeps, h.sum, h.finished, h.atCap⟩

/-- A tick begins its scale step on a copy that is deploying. -/
theorem ScaleCourse.progress_deploying {World : Type} {policy : StepPolicy} {goal : ScaleGoal}
    {trace : List (Exchange World)} {step : ScaleStep}
    (h : ScaleCourse policy goal (d.setPhase .deploying) trace (d', .ok step)) (hgated : Gated d)
    (hlimit : goal.limit = d.limit) :
    ∃ deploying stable, Progress policy d goal step deploying stable ∧
      d' = { d.setPhase .deploying with
        deployingInstances := deploying
        stableInstances := stable } := by
  have hdeploying : Gated (d.setPhase .deploying) := hgated.within_limit hgated.within rfl rfl
  obtain ⟨deploying, stable, hprogress, heq⟩ := h.progress hdeploying hlimit
  exact ⟨deploying, stable, hprogress.of_setPhase, heq⟩

/-- A scale step that has met its cap or its target was told that the new instances are
healthy. -/
theorem ScaleCourse.told {World : Type} {policy : StepPolicy} {goal : ScaleGoal}
    {trace : List (Exchange World)} {step : ScaleStep}
    (h : ScaleCourse policy goal d trace (d', .ok step))
    (hmet : step.atCap = true ∨ step.finished = true) :
    ∃ health w, ⟨.query d.appId d.version, .ok health, w⟩ ∈ trace ∧
      health.covers d.deployingInstances = true := by
  cases h with
  | waiting => simp at hmet
  | stepped hgoal health hcovers w hretiring hmoving =>
    exact ⟨health, w, List.mem_cons_self, hcovers⟩

/-- A deployment begins within its gate. -/
theorem gated_begin {request : Request} (h : request.Sound) (now : UInt64) :
    Gated (Deployment.begin request now) := by
  refine ⟨Nat.zero_le _, fun c hc => ?_, fun c hc => ?_⟩
  · obtain ⟨total, -, rfl⟩ := Option.map_eq_some_iff.mp hc
    exact Nat.zero_le _
  · obtain ⟨total, htotal, rfl⟩ := Option.map_eq_some_iff.mp hc
    exact (h.canary total htotal).2

/-! ## What ends a tick -/

/-- A failure touches neither the counts nor the gate. It changes the phase at most from in
progress to failed. -/
theorem Updater.alike_withFailure (u : Updater) (command : Command) (e : TickError)
    (d : Deployment) : Alike d (u.withFailure command e d).nextRevision ∧
      ((u.withFailure command e d).nextRevision.phase = d.phase ∨
        d.phase.isInProgress = true ∧
          (u.withFailure command e d).nextRevision.phase = command.failurePhase) := by
  rw [withFailure_eq]
  by_cases h : (!e.isRefusal && d.phase.isInProgress) = true
  · rw [if_pos h]
    exact ⟨⟨rfl, rfl, rfl, rfl, rfl⟩, Or.inr ⟨(Bool.and_eq_true_iff.mp h).2, rfl⟩⟩
  · rw [if_neg h]
    exact ⟨⟨rfl, rfl, rfl, rfl, rfl⟩, Or.inl rfl⟩

/-- A failure leaves the counts and the gate. It moves the phase only of a rollout in progress, and
then to the phase of a failed command. -/
theorem Updater.alike_settled_error (u : Updater) (command : Command) (d d₁ : Deployment)
    (e : TickError) : Alike d (u.settled command d d (d₁, .error e)) ∧
      ((u.settled command d d (d₁, .error e)).phase = d.phase ∨
        d.phase.isInProgress = true ∧
          (u.settled command d d (d₁, .error e)).phase = command.failurePhase) := by
  by_cases he : ∃ missing, e = .notFound missing
  · obtain ⟨missing, rfl⟩ := he
    exact ⟨Alike.refl d, Or.inl rfl⟩
  · rw [u.settled_error command d d d₁ fun missing heq => he ⟨missing, heq⟩]
    exact u.alike_withFailure command e d

/-- A success is written as it is, unless there is nothing to write. -/
theorem Updater.alike_settled_ok {u : Updater} {command : Command} {d d₁ d₂ : Deployment}
    (h : Alike d₂ d₁) : Alike d₂ (u.settled command d d (d₁, .ok ())) := by
  rw [settled_ok]
  split
  · next heq => exact heq ▸ h
  · rw [if_pos rfl]
    exact h.trans ⟨rfl, rfl, rfl, rfl, rfl⟩

/-- A tick that succeeds leaves the phase that its copy has, whether or not it writes it. -/
theorem Updater.phase_settled_ok (u : Updater) (command : Command) (d d₁ : Deployment) :
    (u.settled command d d (d₁, .ok ())).phase = d₁.phase := by
  rw [settled_ok]
  split
  · next heq => rw [heq]
  · rw [if_pos rfl]

/-- A copy with another phase is written, and with the time of the tick. -/
theorem Updater.updatedAt_settled_ok {u : Updater} {command : Command} {d d₁ : Deployment}
    (h : d₁.phase ≠ d.phase) : (u.settled command d d (d₁, .ok ())).updatedAt = u.now := by
  rw [settled_ok, if_neg fun heq => h (congrArg Deployment.phase heq), if_pos rfl]

/-- The driver scales a rollout in progress that has no gate. -/
theorem Deployment.command?_eq_scale (h : d.command? = some .scale) :
    d.phase.isInProgress = true ∧ d.canary = none := by
  unfold command? at h
  cases hphase : d.phase <;> cases hcanary : d.canary <;>
    simp [hphase, hcanary] at h <;> exact ⟨rfl, rfl⟩

/-- The driver leads a canary on while it is in progress. -/
theorem Deployment.command?_eq_canary (h : d.command? = some .canary) :
    d.phase.isInProgress = true ∧ ∃ c, d.canary = some c := by
  unfold command? at h
  cases hphase : d.phase <;> cases hcanary : d.canary <;>
    simp [hphase, hcanary] at h <;> exact ⟨rfl, _, rfl⟩

/-- The driver cancels what is to be canceled. -/
theorem Deployment.command?_eq_cancel (h : d.command? = some .cancel) : d.phase = .canceling := by
  unfold command? at h
  cases hphase : d.phase <;> cases hcanary : d.canary <;> simp [hphase, hcanary] at h <;> rfl

/-! ## What a move makes of a rollout -/

/-- The advances that a move can make. Those of a tick are given by its scale step, whose counts
lie between the old ones and the limit. -/
inductive Advance {World : Type} (policy : StepPolicy) (d : Deployment)
    (trace : List (Exchange World)) : Deployment → Prop where
  | kept {d' : Deployment} (halike : Alike d d')
    (hphase : d'.phase = d.phase ∨ d'.phase = .canceling ∨
      d.phase.isInProgress = true ∧ d'.phase = .failed) : Advance policy d trace d'
  | promoted {d' : Deployment} (hpaused : d.phase = .paused)
    (halike : Alike { d with canary := none } d') (hphase : d'.phase = .deploying) :
    Advance policy d trace d'
  | scaled {d' : Deployment} {step : ScaleStep} {deploying stable : UInt32}
    (hactive : d.phase.isInProgress = true) (hcanary : d.canary = none)
    (hprogress : Progress policy d d.fullGoal step deploying stable)
    (halike : Alike { d with deployingInstances := deploying, stableInstances := stable } d')
    (hphase : d'.phase = .deploying) : Advance policy d trace d'
  | finalized {d' : Deployment} (hactive : d.phase.isInProgress = true) (hcanary : d.canary = none)
    (halike : Alike
      { d with deployingInstances := d.desiredWebInstances, stableInstances := 0 } d')
    (hphase : d'.phase = .deployed) : Advance policy d trace d'
  | canaried {d' : Deployment} {c : Canary} {step : ScaleStep} {deploying stable : UInt32}
    (hactive : d.phase.isInProgress = true) (hcanary : d.canary = some c)
    (hprogress : Progress policy d c.goal step deploying stable)
    (halike : Alike { d with deployingInstances := deploying, stableInstances := stable } d')
    (hphase : d'.phase = .deploying) : Advance policy d trace d'
  | raised {d' : Deployment} {c : Canary} {step : ScaleStep} {deploying stable : UInt32}
    (hactive : d.phase.isInProgress = true) (hcanary : d.canary = some c)
    (hprogress : Progress policy d c.goal step deploying stable) (hatCap : step.atCap = true)
    (htold : ∃ health w, ⟨.query d.appId d.version, .ok health, w⟩ ∈ trace ∧
      health.covers d.deployingInstances = true)
    (halike : Alike
      { d with
        deployingInstances := deploying
        stableInstances := stable
        canary := some { c with currentInstanceTarget := c.nextTarget policy } } d')
    (hphase : d'.phase = .deploying) : Advance policy d trace d'
  | paused {d' : Deployment} {c : Canary} {step : ScaleStep} {deploying stable : UInt32}
    (hactive : d.phase.isInProgress = true) (hcanary : d.canary = some c)
    (hprogress : Progress policy d c.goal step deploying stable) (hfinished : step.finished = true)
    (htold : ∃ health w, ⟨.query d.appId d.version, .ok health, w⟩ ∈ trace ∧
      health.covers d.deployingInstances = true)
    (halike : Alike
      { d with
        deployingInstances := deploying
        stableInstances := stable
        lastHealthyAt := some d'.updatedAt } d')
    (hphase : d'.phase = .paused) : Advance policy d trace d'
  | canceled {d' : Deployment} (hcanceling : d.phase = .canceling)
    (halike : Alike
      { d with deployingInstances := 0, stableInstances := d.originalInstances } d')
    (hphase : d'.phase = .canceled) : Advance policy d trace d'

section

variable {World : Type} {policy : StepPolicy} {now : UInt64} {trace : List (Exchange World)}
  {outcome : Outcome Unit}

/-- A tick that fails is an advance that leaves the counts. -/
theorem Advance.of_error {command : Command} {d₁ : Deployment} {e : TickError}
    (hcommand : d.command? = some command) :
    Advance policy d trace (Updater.settled ⟨policy, now⟩ command d d (d₁, .error e)) := by
  obtain ⟨halike, hphase⟩ := Updater.alike_settled_error ⟨policy, now⟩ command d d₁ e
  refine .kept halike ?_
  rcases hphase with hphase | ⟨hactive, hphase⟩
  · exact Or.inl hphase
  · cases command with
    | cancel => exact Or.inr (Or.inl hphase)
    | scale | canary => exact Or.inr (Or.inr ⟨hactive, hphase⟩)

/-- Every course of a scale tick is an advance. -/
theorem Advance.of_scale (hgated : Gated d) (hcommand : d.command? = some .scale)
    (hcourse : TickCourse ⟨policy, now⟩ d .scale trace outcome) :
    Advance policy d trace (Updater.settled ⟨policy, now⟩ .scale d d outcome) := by
  obtain ⟨hactive, hcanary⟩ := Deployment.command?_eq_scale hcommand
  have hlimit := (Deployment.limit_of_none hcanary).symm
  cases hcourse with
  | scaleRefused | scaleFailed | unfinalized => exact .of_error hcommand
  | scaled _ hstep =>
    obtain ⟨deploying, stable, hprogress, rfl⟩ := hstep.progress_deploying hgated hlimit
    exact .scaled hactive hcanary hprogress
      (Updater.alike_settled_ok ⟨rfl, rfl, rfl, rfl, rfl⟩) (Updater.phase_settled_ok ..)
  | finalized _ hstep hfinished =>
    obtain rfl := hstep.eq_of_finished hfinished
    exact .finalized hactive hcanary (Updater.alike_settled_ok ⟨rfl, rfl, rfl, rfl, rfl⟩)
      (Updater.phase_settled_ok ..)

/-- Every course of a canary tick is an advance. -/
theorem Advance.of_canary (hgated : Gated d) (hcommand : d.command? = some .canary)
    (hcourse : TickCourse ⟨policy, now⟩ d .canary trace outcome) :
    Advance policy d trace (Updater.settled ⟨policy, now⟩ .canary d d outcome) := by
  obtain ⟨hactive, c, hcanary⟩ := Deployment.command?_eq_canary hcommand
  have hlimit := (Deployment.limit_of_some hcanary).symm
  cases hcourse with
  | canaryIdle hpaused => simp [hpaused, Phase.isInProgress] at hactive
  | canaryRefused | canaryMissing | canaryFailed => exact .of_error hcommand
  | @canaried hactive c₁ hcanary₁ trace d₁ step hstep =>
    obtain rfl : c₁ = c := Option.some.inj (hcanary₁.symm.trans hcanary)
    obtain ⟨deploying, stable, hprogress, rfl⟩ := hstep.progress_deploying hgated hlimit
    unfold Updater.afterCanaryStep
    split
    · next hfinished =>
      have hleft : Phase.paused ≠ d.phase := fun heq => by
        simp [← heq, Phase.isInProgress] at hactive
      refine .paused hactive hcanary hprogress hfinished
        (hstep.told (Or.inr hfinished)) ?_ (Updater.phase_settled_ok ..)
      rw [Updater.updatedAt_settled_ok hleft]
      exact Updater.alike_settled_ok ⟨rfl, rfl, rfl, rfl, rfl⟩
    · split
      · next hatCap =>
        have hraised : d.canary.map (fun c =>
            { c with currentInstanceTarget := c₁.nextTarget policy }) =
            some { c₁ with currentInstanceTarget := c₁.nextTarget policy } := by
          rw [hcanary, Option.map_some]
        exact .raised hactive hcanary hprogress hatCap
          (hstep.told (Or.inl hatCap))
          (Updater.alike_settled_ok ⟨rfl, rfl, rfl, hraised, rfl⟩) (Updater.phase_settled_ok ..)
      · exact .canaried hactive hcanary hprogress
          (Updater.alike_settled_ok ⟨rfl, rfl, rfl, rfl, rfl⟩) (Updater.phase_settled_ok ..)

/-- Every course of a cancel tick is an advance. -/
theorem Advance.of_cancel (hcommand : d.command? = some .cancel)
    (hcourse : TickCourse ⟨policy, now⟩ d .cancel trace outcome) :
    Advance policy d trace (Updater.settled ⟨policy, now⟩ .cancel d d outcome) := by
  have hcanceling := Deployment.command?_eq_cancel hcommand
  cases hcourse with
  | cancelIdle hphase => simp [hphase] at hcanceling
  | cancelRefused | unrestored | unremoved => exact .of_error hcommand
  | canceled =>
    exact .canceled hcanceling (Updater.alike_settled_ok ⟨rfl, rfl, rfl, rfl, rfl⟩)
      (Updater.phase_settled_ok ..)

/-- Every move within the gate is an advance. -/
theorem RecordMove.advance (hgated : Gated d) (h : RecordMove policy d trace d') :
    Advance policy d trace d' := by
  cases h with
  | idle => exact .kept (Alike.refl d) (Or.inl rfl)
  | @tick now command trace outcome hcommand hcourse =>
    cases command with
    | scale => exact .of_scale hgated hcommand hcourse
    | canary => exact .of_canary hgated hcommand hcourse
    | cancel => exact .of_cancel hcommand hcourse
  | cancelRequest =>
    unfold Operator.canceled Deployment.requestCancel?
    split
    · exact .kept ⟨rfl, rfl, rfl, rfl, rfl⟩ (Or.inl rfl)
    · exact .kept ⟨rfl, rfl, rfl, rfl, rfl⟩ (Or.inr (Or.inl rfl))
  | promotion =>
    unfold Operator.promoted Deployment.promote?
    split
    · next hpaused => exact .promoted hpaused ⟨rfl, rfl, rfl, rfl, rfl⟩ rfl
    · exact .kept ⟨rfl, rfl, rfl, rfl, rfl⟩ (Or.inl rfl)

/-- A target that is raised stays within the total. -/
theorem Canary.nextTarget_le (policy : StepPolicy) (c : Canary) :
    (c.nextTarget policy).toNat ≤ c.totalInstances.toNat := by
  rw [nextTarget, toNat_min]
  exact Nat.min_le_right _ _

/-- The counts stay within one another. -/
theorem Advance.gated (hgated : Gated d) (h : Advance policy d trace d') : Gated d' := by
  have hlimit := hgated.limit_le
  cases h with
  | kept halike => exact halike.gated hgated
  | promoted _ halike =>
    exact halike.gated ⟨Nat.le_trans hgated.within hlimit, by simp, by simp⟩
  | scaled _ _ hprogress halike
  | canaried _ _ hprogress halike
  | paused _ _ hprogress _ _ halike =>
    refine hgated.within_limit ?_ halike.canary halike.desired
    rw [halike.deploying]
    exact hprogress.within
  | finalized _ hcanary halike =>
    refine hgated.within_limit ?_ halike.canary halike.desired
    rw [halike.deploying]
    exact Nat.le_of_eq (congrArg UInt32.toNat (Deployment.limit_of_none hcanary).symm)
  | @raised c step deploying stable _ hcanary hprogress hatCap _ halike =>
    have htarget := hgated.target c hcanary
    refine halike.gated ⟨?_, ?_, ?_⟩
    · have hwithin := hprogress.within
      have hnext := c.toNat_nextTarget policy htarget
      rw [Deployment.limit_of_some hcanary] at hwithin
      change deploying.toNat ≤ (c.nextTarget policy).toNat
      omega
    · rintro _ ⟨⟩
      exact c.nextTarget_le policy
    · rintro _ ⟨⟩
      exact hgated.total c hcanary
  | canceled _ halike =>
    refine hgated.within_limit ?_ halike.canary halike.desired
    rw [halike.deploying]
    exact Nat.zero_le _

/-- A cancel is never taken back. -/
theorem Advance.stays_canceled (h : Advance policy d trace d')
    (hcancel : d.phase = .canceling ∨ d.phase = .canceled) :
    d'.phase = .canceling ∨ d'.phase = .canceled := by
  have hinactive : d.phase.isInProgress = false := by
    rcases hcancel with heq | heq
    · rw [heq]
      rfl
    · rw [heq]
      rfl
  cases h with
  | kept _ hphase =>
    rcases hphase with hsame | hcanceling | ⟨hactive, -⟩
    · rwa [hsame]
    · exact Or.inl hcanceling
    · simp [hinactive] at hactive
  | promoted hpaused => simp [hpaused] at hcancel
  | scaled hactive | finalized hactive | canaried hactive | raised hactive | paused hactive =>
    simp [hinactive] at hactive
  | canceled _ _ hphase => exact Or.inr hphase

/-! ## The calls of a tick -/

/-- The calls of a tick that goes forward. It keeps as many stable instances as are still
missing, does not stop new ones, and removes the stable ones when none is missing. -/
inductive ForwardCall (d : Deployment) : Call → Prop where
  | ask : ForwardCall d (.query d.appId d.version)
  | retire {count : UInt32} (hkept : min (d.desiredWebInstances.toNat - d.deployingInstances.toNat)
      d.stableInstances.toNat ≤ count.toNat) :
    ForwardCall d (.setCount d.appId d.previousVersion count)
  | start {count : UInt32} (hrises : d.deployingInstances.toNat ≤ count.toNat)
    (hwithin : count.toNat ≤ d.limit.toNat) : ForwardCall d (.setCount d.appId d.version count)
  | finish (h : d.desiredWebInstances.toNat ≤ d.deployingInstances.toNat) :
    ForwardCall d (.remove d.appId d.previousVersion)

private theorem ForwardCall.of_setPhase {phase : Phase} {c : Call}
    (h : ForwardCall (d.setPhase phase) c) : ForwardCall d c := by
  cases h with
  | ask => exact .ask
  | retire hkept => exact .retire hkept
  | start hrises hwithin => exact .start hrises hwithin
  | finish h => exact .finish h

/-- Retiring stable instances keeps those that are still missing. -/
theorem Retirement.calls {kept : UInt32} (h : Retirement d kept trace)
    (hkept : min (d.desiredWebInstances.toNat - d.deployingInstances.toNat)
      d.stableInstances.toNat ≤ kept.toNat) : ∀ e ∈ trace, ForwardCall d e.call := by
  intro e he
  cases h with
  | unneeded => cases he
  | retired =>
    obtain rfl := List.mem_singleton.mp he
    exact .retire hkept

/-- A movement within the gate goes forward. -/
theorem Movement.calls {goal : ScaleGoal} {kept : UInt32} {outcome : Outcome ScaleStep}
    (h : Movement policy goal { d with stableInstances := kept } trace outcome)
    (hgated : Gated d) (hlimit : goal.limit = d.limit) : ∀ e ∈ trace, ForwardCall d e.call := by
  intro e he
  cases h with
  | reached | held => cases he
  | failed _ hne | moved _ hne =>
    obtain rfl := List.mem_singleton.mp he
    have hwithin := hgated.within
    have hnat : d.deployingInstances.toNat ≠ goal.limit.toNat := toNat_ne.mp hne
    rw [hlimit] at hnat ⊢
    have hlt : d.deployingInstances.toNat < d.limit.toNat := by omega
    obtain ⟨hrises, hbound⟩ := policy.toward_of_lt hlt
    exact .start (Nat.le_of_lt hrises) hbound

/-- All calls of a scale step within the gate go forward. -/
theorem ScaleCourse.calls {goal : ScaleGoal} {outcome : Outcome ScaleStep}
    (h : ScaleCourse policy goal d trace outcome) (hgated : Gated d)
    (hlimit : goal.limit = d.limit) :
    ∀ e ∈ trace, ForwardCall d e.call := by
  intro e he
  cases h with
  | refused => cases he
  | unanswered | waiting =>
    obtain rfl := List.mem_singleton.mp he
    exact .ask
  | unretired hgoal health hcovers =>
    rcases List.mem_cons.mp he with rfl | he
    · exact .ask
    · obtain rfl := List.mem_singleton.mp he
      exact .retire (Nat.le_of_eq (Deployment.toNat_stableGoal_of_covers hcovers).symm)
  | stepped hgoal health hcovers w hretiring hmoving =>
    have hkept := Nat.le_of_eq (Deployment.toNat_stableGoal_of_covers hcovers).symm
    rcases List.mem_cons.mp he with rfl | he
    · exact .ask
    · rcases List.mem_append.mp he with he | he
      · exact hretiring.calls hkept e he
      · exact hmoving.calls hgated hlimit e he

/-- A tick that the phase calls for goes forward, unless it is a cancel. -/
theorem TickCourse.calls {command : Command} (hgated : Gated d)
    (hcommand : d.command? = some command) (hforward : command ≠ .cancel)
    (h : TickCourse ⟨policy, now⟩ d command trace outcome) :
    ∀ e ∈ trace, ForwardCall d e.call := by
  have hdeploying : Gated (d.setPhase .deploying) := hgated.within_limit hgated.within rfl rfl
  have hscale {goal : ScaleGoal} {outcome : Outcome ScaleStep} {trace : List (Exchange World)}
      (hstep : ScaleCourse policy goal (d.setPhase .deploying) trace outcome)
      (hlimit : goal.limit = d.limit) : ∀ e ∈ trace, ForwardCall d e.call :=
    fun e he => (hstep.calls hdeploying hlimit e he).of_setPhase
  cases h with
  | scaleRefused | canaryIdle | canaryRefused | canaryMissing => simp
  | scaleFailed _ hstep | scaled _ hstep =>
    have hcanary := (Deployment.command?_eq_scale hcommand).2
    exact hscale hstep (Deployment.limit_of_none hcanary).symm
  | unfinalized _ hstep hfinished | finalized _ hstep hfinished =>
    have hcanary := (Deployment.command?_eq_scale hcommand).2
    have hlimit := (Deployment.limit_of_none hcanary).symm
    obtain ⟨deploying, stable, hprogress, -⟩ := hstep.progress_deploying hgated hlimit
    have hreached : d.deployingInstances = d.desiredWebInstances :=
      (hprogress.finished hfinished).1
    intro e he
    rcases List.mem_append.mp he with he | he
    · exact hscale hstep hlimit e he
    · obtain rfl := List.mem_singleton.mp he
      exact .finish (Nat.le_of_eq (congrArg UInt32.toNat hreached.symm))
  | canaryFailed _ hcanary hstep | canaried _ hcanary hstep =>
    exact hscale hstep (Deployment.limit_of_some hcanary).symm
  | cancelIdle | cancelRefused | unrestored | unremoved | canceled => exact absurd rfl hforward

/-- Until a cancel is asked for, the calls of a move go forward. -/
theorem RecordMove.calls (hgated : Gated d) (h : RecordMove policy d trace d')
    (hphase : d.phase ≠ .canceling) : ∀ e ∈ trace, ForwardCall d e.call := by
  cases h with
  | idle | cancelRequest | promotion => simp
  | tick now hcommand hcourse =>
    refine hcourse.calls hgated hcommand ?_
    rintro rfl
    exact hphase (Deployment.command?_eq_cancel hcommand)

end

end Rollout
