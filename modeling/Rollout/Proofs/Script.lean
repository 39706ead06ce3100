import Rollout.Proofs.Advance

/-!
# The script of a tick

The calls of a tick are settled by the record, and by whether the new instances that the record
counts are found healthy. A tick whose calls are all answered has made all of them, and leaves a
copy that is settled in the same way. Any other tick has made the first of them, up to the one
that failed.
-/

namespace Rollout

variable {World : Type}

/-! ## Scripts -/

namespace Deployment

/-- How many stable instances a scale step keeps if the new ones are healthy. -/
def retained (d : Deployment) : UInt32 :=
  d.stableGoal ⟨d.deployingInstances, d.deployingInstances⟩

/-- Whether a scale step toward a goal leaves the new instances as they are. -/
def settles (d : Deployment) (goal : ScaleGoal) : Prop :=
  d.deployingInstances = goal.target ∨ d.deployingInstances = goal.limit

/-- Whether a step settles its goal is seen from the record. -/
instance (d : Deployment) (goal : ScaleGoal) : Decidable (d.settles goal) :=
  inferInstanceAs (Decidable (_ ∨ _))

/-- The call in which a scale step retires stable instances. -/
def retirementCalls (d : Deployment) : List Call :=
  if d.retained < d.stableInstances then [.setCount d.appId d.previousVersion d.retained] else []

/-- The call in which a scale step moves the new instances. -/
def movementCalls (d : Deployment) (policy : StepPolicy) (goal : ScaleGoal) : List Call :=
  if d.settles goal then []
  else [.setCount d.appId d.version (policy.toward goal.limit d.deployingInstances)]

/-- The calls of a scale step. -/
def stepCalls (d : Deployment) (policy : StepPolicy) (goal : ScaleGoal) (healthy : Bool) :
    List Call :=
  .query d.appId d.version ::
    if healthy then d.retirementCalls ++ d.movementCalls policy goal else []

/-- With healthy instances a step asks for them, retires and then moves. -/
theorem stepCalls_healthy (d : Deployment) (policy : StepPolicy) (goal : ScaleGoal) :
    d.stepCalls policy goal true =
      (.query d.appId d.version :: d.retirementCalls) ++ d.movementCalls policy goal :=
  rfl

/-- The copy that a scale step leaves. -/
def stepped (d : Deployment) (policy : StepPolicy) (goal : ScaleGoal) (healthy : Bool) :
    Deployment :=
  if healthy then
    { d with
      stableInstances := d.retained
      deployingInstances :=
        if d.settles goal then d.deployingInstances
        else policy.toward goal.limit d.deployingInstances }
  else d

/-- What a scale step finds out about its goal. -/
def verdict (d : Deployment) (goal : ScaleGoal) (healthy : Bool) : ScaleStep where
  finished := healthy && decide (d.deployingInstances = goal.target) &&
    (goal.cap.isSome || d.retained == 0)
  atCap := healthy && decide (d.deployingInstances ≠ goal.target) &&
    decide (d.deployingInstances = goal.limit)

/-- The calls of a cancel: the stable instances come back before the new ones go. -/
def cancelCalls (d : Deployment) : List Call :=
  [.setCount d.appId d.previousVersion d.originalInstances, .remove d.appId d.version]

/-- The copy that a cancel leaves. -/
def reverted (d : Deployment) : Deployment :=
  { d with deployingInstances := 0, stableInstances := d.originalInstances }.setPhase .canceled

/-- The copy that the end of a rollout leaves. -/
def finalized (d : Deployment) : Deployment :=
  { d with stableInstances := 0 }.setPhase .deployed

/-- The calls of a tick. -/
def script (d : Deployment) (policy : StepPolicy) (healthy : Bool) : Command → List Call
  | .scale =>
    d.stepCalls policy d.fullGoal healthy ++
      if (d.verdict d.fullGoal healthy).finished then [.remove d.appId d.previousVersion] else []
  | .canary => (d.canary.map fun c => d.stepCalls policy c.goal healthy).getD []
  | .cancel => d.cancelCalls

/-- The copy that a tick leaves. -/
def ticked (d : Deployment) (u : Updater) (healthy : Bool) : Command → Deployment
  | .scale =>
    let stepped := (d.setPhase .deploying).stepped u.policy d.fullGoal healthy
    if (d.verdict d.fullGoal healthy).finished then stepped.finalized else stepped
  | .canary =>
    (d.canary.map fun c => u.afterCanaryStep c (d.verdict c.goal healthy)
      ((d.setPhase .deploying).stepped u.policy c.goal healthy)).getD d
  | .cancel => d.reverted

end Deployment

/-- A script has been followed to its end, or up to a call that failed. -/
inductive Scripted {α : Type} (script : List Call) (full : Outcome α → Prop) :
    List (Exchange World) → Outcome α → Prop where
  | full {trace : List (Exchange World)} {outcome : Outcome α}
    (hcalls : trace.map Exchange.call = script) (hanswered : ∀ x ∈ trace, x.Answered)
    (h : full outcome) : Scripted script full trace outcome
  | failed {trace : List (Exchange World)} {d : Deployment} {e : SchedulerError}
    (hcalls : trace.map Exchange.call <+: script) (hfails : ∃ x ∈ trace, ¬x.Answered) :
    Scripted script full trace (d, .error (.scheduler e))

/-- However a script is followed, the calls are the first ones of it. -/
theorem Scripted.isPrefix {α : Type} {script : List Call} {full : Outcome α → Prop}
    {trace : List (Exchange World)} {outcome : Outcome α}
    (h : Scripted script full trace outcome) : trace.map Exchange.call <+: script := by
  cases h with
  | full hcalls => exact hcalls ▸ List.prefix_refl _
  | failed hcalls => exact hcalls

/-! ## Scale steps -/

variable {policy : StepPolicy} {goal : ScaleGoal} {d : Deployment} {u : Updater}
  {trace : List (Exchange World)} {healthy : Bool}

/-- A report that covers the new instances lets all stable ones go that they replace. -/
theorem Deployment.stableGoal_of_covers {health : Health}
    (h : health.covers d.deployingInstances = true) : d.stableGoal health = d.retained := by
  have hself : Health.covers ⟨d.deployingInstances, d.deployingInstances⟩ d.deployingInstances =
      true := by
    simp [Health.covers]
  rw [← UInt32.toNat_inj, retained, toNat_stableGoal_of_covers h, toNat_stableGoal_of_covers hself]

/-- Retiring makes the call that the script has for it. -/
theorem Retirement.calls_eq (h : Retirement d d.retained trace) :
    trace.map Exchange.call = d.retirementCalls ∧ ∀ x ∈ trace, x.Answered := by
  unfold Deployment.retirementCalls
  cases h with
  | unneeded hless => simp [hless]
  | retired hless w => simp [hless, Exchange.Answered]

/-- The part of a scale step that moves the new instances follows its part of the script. -/
theorem Movement.scripted {outcome : Outcome ScaleStep}
    (h : Movement policy goal { d with stableInstances := d.retained } trace outcome) :
    Scripted (d.movementCalls policy goal)
      (fun outcome => ∃ step, outcome = (d.stepped policy goal true, .ok step) ∧
        step.finished = (d.verdict goal true).finished ∧ step.atCap = (d.verdict goal true).atCap)
      trace outcome := by
  unfold Deployment.movementCalls Deployment.stepped Deployment.verdict
  cases h with
  | reached htarget hfinished hatCap =>
    have htarget : d.deployingInstances = goal.target := htarget
    have hsettles : d.settles goal := Or.inl htarget
    rw [if_pos hsettles, if_pos hsettles]
    refine .full rfl (by simp) ⟨_, rfl, ?_, ?_⟩
    · simp [hfinished, htarget]
    · simp [hatCap, htarget]
  | held htarget hlimit hfinished hatCap =>
    have htarget : d.deployingInstances ≠ goal.target := htarget
    have hlimit : d.deployingInstances = goal.limit := hlimit
    have hsettles : d.settles goal := Or.inr hlimit
    rw [if_pos hsettles, if_pos hsettles]
    refine .full rfl (by simp) ⟨_, rfl, ?_, ?_⟩
    · simp [hfinished, htarget]
    · simp [hatCap, htarget, ← hlimit]
  | failed htarget hlimit e w =>
    have hsettles : ¬d.settles goal := not_or.mpr ⟨htarget, hlimit⟩
    rw [if_neg hsettles]
    exact .failed (List.prefix_refl _) (by simp [Exchange.Answered])
  | moved htarget hlimit hfinished hatCap w =>
    have htarget : d.deployingInstances ≠ goal.target := htarget
    have hlimit : d.deployingInstances ≠ goal.limit := hlimit
    have hsettles : ¬d.settles goal := not_or.mpr ⟨htarget, hlimit⟩
    rw [if_neg hsettles, if_neg hsettles]
    refine .full rfl (by simp [Exchange.Answered]) ⟨_, rfl, ?_, ?_⟩
    · simp [hfinished, htarget]
    · simp [hatCap, hlimit]

/-- What comes before a script has been done, and the rest of it is followed. -/
theorem Scripted.after {α : Type} {script : List Call} {full : Outcome α → Prop}
    {outcome : Outcome α} (h : Scripted script full trace outcome) {first : List (Exchange World)}
    {calls : List Call} (hcalls : first.map Exchange.call = calls)
    (hanswered : ∀ x ∈ first, x.Answered) :
    Scripted (calls ++ script) full (first ++ trace) outcome := by
  cases h with
  | full hscript hrest hfull =>
    refine .full ?_ ?_ hfull
    · rw [List.map_append, hcalls, hscript]
    · exact List.forall_mem_append.mpr ⟨hanswered, hrest⟩
  | failed hscript hfails =>
    refine .failed ?_ ?_
    · rw [List.map_append, hcalls]
      exact (List.prefix_append_right_inj _).mpr hscript
    · obtain ⟨x, hx, hfails⟩ := hfails
      exact ⟨x, List.mem_append_right _ hx, hfails⟩

/-- A scale step follows its script. -/
theorem ScaleCourse.scripted {outcome : Outcome ScaleStep}
    (h : ScaleCourse policy goal d trace outcome) (hgoal : goal.violation? = none)
    (hhealthy : ∀ health w, ⟨.query d.appId d.version, .ok health, w⟩ ∈ trace →
      health.covers d.deployingInstances = healthy) :
    Scripted (d.stepCalls policy goal healthy)
      (fun outcome => ∃ step, outcome = (d.stepped policy goal healthy, .ok step) ∧
        step.finished = (d.verdict goal healthy).finished ∧
        step.atCap = (d.verdict goal healthy).atCap)
      trace outcome := by
  cases h with
  | refused hviolation =>
    rw [hgoal] at hviolation
    cases hviolation
  | unanswered _ e w =>
    refine .failed ?_ (by simp [Exchange.Answered])
    exact (List.prefix_cons_inj _).mpr (List.nil_prefix)
  | waiting _ health hcovers w =>
    obtain rfl := (hhealthy health w List.mem_cons_self).symm.trans hcovers
    refine .full ?_ (by simp [Exchange.Answered]) ⟨_, rfl, ?_, ?_⟩
    · rfl
    · simp [Deployment.verdict]
    · simp [Deployment.verdict]
  | unretired _ health hcovers hless e w w' =>
    obtain rfl := (hhealthy health w List.mem_cons_self).symm.trans hcovers
    rw [Deployment.stableGoal_of_covers hcovers] at hless ⊢
    refine .failed ?_ (by simp [Exchange.Answered])
    refine (List.prefix_cons_inj _).mpr ?_
    rw [if_pos rfl, Deployment.retirementCalls, if_pos hless]
    exact List.prefix_append _ _
  | stepped _ health hcovers w hretiring hmoving =>
    obtain rfl := (hhealthy health w List.mem_cons_self).symm.trans hcovers
    rw [Deployment.stableGoal_of_covers hcovers] at hretiring hmoving
    obtain ⟨hcalls, hanswered⟩ := hretiring.calls_eq
    rw [Deployment.stepCalls_healthy]
    refine hmoving.scripted.after ?_ ?_
    · rw [List.map_cons, hcalls]
    · exact List.forall_mem_cons.mpr ⟨⟨health, rfl⟩, hanswered⟩

/-! ## Ticks -/

/-- A cancel follows its script, unless it has nothing to do or may not be made. -/
theorem TickCourse.scripted_cancel {outcome : Outcome Unit}
    (h : TickCourse u d .cancel trace outcome) (hphase : d.phase.isTerminal = false) :
    Scripted d.cancelCalls (· = (d.reverted, .ok ())) trace outcome := by
  cases h with
  | cancelIdle heq | cancelRefused heq => simp [heq, Phase.isTerminal] at hphase
  | unrestored _ e w =>
    refine .failed ?_ (by simp [Exchange.Answered])
    exact (List.prefix_cons_inj _).mpr List.nil_prefix
  | unremoved _ e w w' =>
    refine .failed ?_ (by simp [Exchange.Answered])
    exact List.prefix_refl _
  | canceled _ removed w w' =>
    refine .full ?_ (by simp [Exchange.Answered]) rfl
    rfl

/-- The scale step of a tick begins on a copy that is deploying. If it succeeds, it has followed
the script to its end. -/
theorem ScaleCourse.complete {d' : Deployment} {step : ScaleStep}
    (h : ScaleCourse policy goal (d.setPhase .deploying) trace (d', .ok step))
    (hgoal : goal.violation? = none)
    (hhealthy : ∀ health w, ⟨.query d.appId d.version, .ok health, w⟩ ∈ trace →
      health.covers d.deployingInstances = healthy) :
    trace.map Exchange.call = d.stepCalls policy goal healthy ∧ (∀ x ∈ trace, x.Answered) ∧
      d' = (d.setPhase .deploying).stepped policy goal healthy ∧
      step.finished = (d.verdict goal healthy).finished ∧
      step.atCap = (d.verdict goal healthy).atCap := by
  cases h.scripted hgoal hhealthy with
  | full hcalls hanswered hfull =>
    obtain ⟨_, heq, hfinished, hatCap⟩ := hfull
    obtain ⟨hcopy, hok⟩ := Prod.mk.inj heq
    obtain rfl := Except.ok.inj hok
    exact ⟨hcalls, hanswered, hcopy, hfinished, hatCap⟩

/-- If the scale step of a tick fails, then because of one of its calls. -/
theorem ScaleCourse.incomplete {d' : Deployment} {e : TickError}
    (h : ScaleCourse policy goal (d.setPhase .deploying) trace (d', .error e))
    (hgoal : goal.violation? = none)
    (hhealthy : ∀ health w, ⟨.query d.appId d.version, .ok health, w⟩ ∈ trace →
      health.covers d.deployingInstances = healthy) :
    trace.map Exchange.call <+: d.stepCalls policy goal healthy ∧ (∃ x ∈ trace, ¬x.Answered) ∧
      ∃ failure, e = .scheduler failure := by
  cases h.scripted hgoal hhealthy with
  | full _ _ hfull =>
    obtain ⟨_, heq, -⟩ := hfull
    cases heq
  | failed hcalls hfails => exact ⟨hcalls, hfails, _, rfl⟩

/-- A scale tick of a rollout in progress follows its script. -/
theorem TickCourse.scripted_scale {outcome : Outcome Unit}
    (h : TickCourse u d .scale trace outcome) (hactive : d.phase.isInProgress = true)
    (hhealthy : ∀ health w, ⟨.query d.appId d.version, .ok health, w⟩ ∈ trace →
      health.covers d.deployingInstances = healthy) :
    Scripted (d.script u.policy healthy .scale) (· = (d.ticked u healthy .scale, .ok ())) trace
      outcome := by
  have hgoal : d.fullGoal.violation? = none := rfl
  unfold Deployment.script Deployment.ticked
  cases h with
  | scaleRefused hphase =>
    rw [hactive] at hphase
    cases hphase
  | scaleFailed _ hstep =>
    obtain ⟨hcalls, hfails, _, rfl⟩ := hstep.incomplete hgoal hhealthy
    exact .failed (hcalls.trans (List.prefix_append _ _)) hfails
  | scaled _ hstep hunfinished =>
    obtain ⟨hcalls, hanswered, rfl, hfinished, -⟩ := hstep.complete hgoal hhealthy
    rw [← hfinished, hunfinished]
    refine .full ?_ hanswered rfl
    rw [hcalls]
    exact (List.append_nil _).symm
  | unfinalized _ hstep hreached e w =>
    obtain ⟨hcalls, -, rfl, hfinished, -⟩ := hstep.complete hgoal fun health w hmem =>
      hhealthy health w (List.mem_append_left _ hmem)
    rw [← hfinished, hreached]
    refine .failed ?_ ⟨_, List.mem_append_right _ List.mem_cons_self, by simp [Exchange.Answered]⟩
    rw [List.map_append, hcalls]
    exact List.prefix_refl _
  | finalized _ hstep hreached removed w =>
    obtain ⟨hcalls, hanswered, rfl, hfinished, -⟩ := hstep.complete hgoal fun health w hmem =>
      hhealthy health w (List.mem_append_left _ hmem)
    rw [← hfinished, hreached]
    refine .full ?_ ?_ rfl
    · rw [List.map_append, hcalls]
      rfl
    · exact List.forall_mem_append.mpr ⟨hanswered, by simp [Exchange.Answered]⟩

/-- What follows the scale step of a canary tick depends on its verdict alone. -/
theorem Updater.afterCanaryStep_congr (u : Updater) (c : Canary) {step step' : ScaleStep}
    (hfinished : step.finished = step'.finished) (hatCap : step.atCap = step'.atCap)
    (d : Deployment) : u.afterCanaryStep c step d = u.afterCanaryStep c step' d := by
  unfold afterCanaryStep
  rw [hfinished, hatCap]

/-- A canary tick of a rollout in progress follows its script. -/
theorem TickCourse.scripted_canary {outcome : Outcome Unit}
    (h : TickCourse u d .canary trace outcome) (hactive : d.phase.isInProgress = true)
    {c : Canary} (hcanary : d.canary = some c) (hgated : Gated d)
    (hhealthy : ∀ health w, ⟨.query d.appId d.version, .ok health, w⟩ ∈ trace →
      health.covers d.deployingInstances = healthy) :
    Scripted (d.script u.policy healthy .canary) (· = (d.ticked u healthy .canary, .ok ())) trace
      outcome := by
  have hgoal := Canary.violation?_goal (hgated.target c hcanary)
  simp only [Deployment.script, Deployment.ticked, hcanary, Option.map_some, Option.getD_some]
  cases h with
  | canaryIdle hphase => simp [hphase, Phase.isInProgress] at hactive
  | canaryRefused _ hphase =>
    rw [hactive] at hphase
    cases hphase
  | canaryMissing _ hmissing =>
    rw [hcanary] at hmissing
    cases hmissing
  | canaryFailed _ hcanary' hstep =>
    obtain rfl := Option.some.inj (hcanary.symm.trans hcanary')
    obtain ⟨hcalls, hfails, _, rfl⟩ := hstep.incomplete hgoal hhealthy
    exact .failed hcalls hfails
  | canaried _ hcanary' hstep =>
    obtain rfl := Option.some.inj (hcanary.symm.trans hcanary')
    obtain ⟨hcalls, hanswered, rfl, hfinished, hatCap⟩ := hstep.complete hgoal hhealthy
    refine .full hcalls hanswered ?_
    rw [u.afterCanaryStep_congr c hfinished hatCap]

/-- A tick that the phase calls for follows its script. -/
theorem TickCourse.scripted {command : Command} {outcome : Outcome Unit}
    (h : TickCourse u d command trace outcome) (hcommand : d.command? = some command)
    (hgated : Gated d)
    (hhealthy : ∀ health w, ⟨.query d.appId d.version, .ok health, w⟩ ∈ trace →
      health.covers d.deployingInstances = healthy) :
    Scripted (d.script u.policy healthy command) (· = (d.ticked u healthy command, .ok ())) trace
      outcome := by
  cases command with
  | scale =>
    obtain ⟨hactive, -⟩ := Deployment.command?_eq_scale hcommand
    exact h.scripted_scale hactive hhealthy
  | canary =>
    obtain ⟨hactive, c, hcanary⟩ := Deployment.command?_eq_canary hcommand
    exact h.scripted_canary hactive hcanary hgated hhealthy
  | cancel =>
    refine h.scripted_cancel ?_
    rw [Deployment.command?_eq_cancel hcommand]
    rfl

end Rollout
