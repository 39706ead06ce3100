import Rollout.Proofs.Advance
import Rollout.Proofs.Census

/-!
# Availability during a rollout

The instances of both versions together never get fewer than the smaller of the original and
the desired number, not even between two calls of a tick. The record alone does not show this:
a tick that fails half-way leaves a record that no longer agrees with the instances there are.
What carries the argument is that the instances always cover the record from above.
-/

namespace Rollout

/-! ## The sum of the two counts -/

/-- How many instances there have to be at least: the original or the desired number, whichever
is smaller. -/
def Deployment.floor (d : Deployment) : Nat :=
  min d.originalInstances.toNat d.desiredWebInstances.toNat

/-- The counts of a record add up to neither too few instances nor, as the policy has no fault,
to more than one step too many. -/
structure Balanced (policy : StepPolicy) (d : Deployment) : Prop where
  /-- The counts never add up to fewer instances than the floor. -/
  enough : d.floor ≤ d.deployingInstances.toNat + d.stableInstances.toNat
  /-- With a valid policy they add up to no more than there were at first, or than one step beyond
  the desired number. -/
  bounded : policy.fault? = none → d.deployingInstances.toNat + d.stableInstances.toNat ≤
    max d.originalInstances.toNat
      (d.desiredWebInstances.toNat + policy.size d.desiredWebInstances)

section

variable {policy : StepPolicy} {d d' : Deployment}

private theorem Deployment.floor_of_terms (h : d'.terms = d.terms) : d'.floor = d.floor := by
  rw [floor, floor, original_of_terms h, desired_of_terms h]

/-- The record of a new deployment is balanced. -/
theorem balanced_begin (policy : StepPolicy) (request : Request) (now : UInt64) :
    Balanced policy (Deployment.begin request now) := by
  have hzero : (0 : UInt32).toNat = 0 := rfl
  constructor
  · simp only [Deployment.floor, Deployment.begin]
    omega
  · intro _
    simp only [Deployment.begin]
    omega

private theorem Alike.balanced (h : Alike d d') (hbalanced : Balanced policy d) :
    Balanced policy d' := by
  constructor
  · rw [Deployment.floor_of_terms h.terms, h.deploying, h.stable]
    exact hbalanced.enough
  · rw [h.deploying, h.stable, h.original, h.desired]
    exact hbalanced.bounded

/-- A scale step keeps the balance. -/
theorem Progress.balanced {goal : ScaleGoal} {step : ScaleStep} {deploying stable : UInt32}
    (h : Progress policy d goal step deploying stable) (hgated : Gated d)
    (hbalanced : Balanced policy d) :
    Balanced policy { d with deployingInstances := deploying, stableInstances := stable } := by
  have hwithin := hgated.within
  have hdesired := hgated.limit_le
  constructor
  · have hrises := h.rises
    have hkeeps := h.keeps
    have henough := hbalanced.enough
    simp only [Deployment.floor] at henough ⊢
    omega
  · intro hvalid
    have hsum := h.sum
    have hbounded := hbalanced.bounded hvalid
    have hdistance := toNat_sub (a := d.limit) (b := d.deployingInstances) hwithin
    have hstep : policy.size (d.limit - d.deployingInstances) ≤
        policy.size d.desiredWebInstances :=
      StepPolicy.size_mono hvalid (by omega)
    dsimp only
    omega

/-- An advance within the gate leaves a balanced record. -/
theorem Advance.balanced {World : Type} {trace : List (Exchange World)} (hgated : Gated d)
    (hbalanced : Balanced policy d) (h : Advance policy d trace d') : Balanced policy d' := by
  have hzero : (0 : UInt32).toNat = 0 := rfl
  cases h with
  | kept halike => exact halike.balanced hbalanced
  | promoted _ halike => exact halike.balanced ⟨hbalanced.enough, hbalanced.bounded⟩
  | scaled _ _ hprogress halike | canaried _ _ hprogress halike =>
    exact halike.balanced (hprogress.balanced hgated hbalanced)
  | raised _ _ hprogress _ _ halike | paused _ _ hprogress _ _ halike =>
    have hcounts := hprogress.balanced hgated hbalanced
    exact halike.balanced ⟨hcounts.enough, hcounts.bounded⟩
  | finalized _ _ halike =>
    refine halike.balanced ⟨?_, fun _ => ?_⟩
    · simp only [Deployment.floor]
      omega
    · dsimp only
      omega
  | canceled _ halike =>
    refine halike.balanced ⟨?_, fun _ => ?_⟩
    · simp only [Deployment.floor]
      omega
    · dsimp only
      omega

end

/-! ## What there is covers the record -/

variable {Rest : Type} {scheduler : Scheduler (Store × Rest)} {census : Census Rest}
  {d d' : Deployment} {w w' : Store × Rest}

/-- The instances of both versions together. -/
def Census.live (census : Census Rest) (d : Deployment) (w : Store × Rest) : Nat :=
  census.of w (d.appId, d.previousVersion) + census.of w (d.appId, d.version)

/-- At least as many new instances as the record counts, and at least the stable ones that are
still missing beside these. -/
structure Covered (census : Census Rest) (d : Deployment) (w : Store × Rest) : Prop where
  /-- The new instances that the record counts are there. -/
  fresh : d.deployingInstances.toNat ≤ census.of w (d.appId, d.version)
  /-- The stable ones that stand for missing new ones are there. -/
  stable : min (d.desiredWebInstances.toNat - d.deployingInstances.toNat)
    d.stableInstances.toNat ≤ census.of w (d.appId, d.previousVersion)

namespace Covered

/-- Together these are enough. -/
theorem floor_le_live {policy : StepPolicy} (h : Covered census d w) (hgated : Gated d)
    (hbalanced : Balanced policy d) : d.floor ≤ census.live d w := by
  have hfresh := h.fresh
  have hstable := h.stable
  have hwithin := hgated.within
  have hlimit := hgated.limit_le
  have henough := hbalanced.enough
  simp only [Deployment.floor, Census.live] at henough ⊢
  omega

private theorem of_alike (h : Covered census d w) (halike : Alike d d') : Covered census d' w := by
  constructor
  · rw [halike.deploying, Deployment.fresh_of_terms halike.terms]
    exact h.fresh
  · rw [halike.deploying, halike.stable, halike.desired, Deployment.replaced_of_terms halike.terms]
    exact h.stable

/-- A record is covered in every world with the same instances. -/
theorem of_census (h : Covered census d w)
    (hsame : ∀ version, census.of w' (d.appId, version) = census.of w (d.appId, version)) :
    Covered census d w' :=
  ⟨by rw [hsame]; exact h.fresh, by rw [hsame]; exact h.stable⟩

end Covered

/-- A call that goes forward leaves the record covered, whether it fails or not. -/
theorem ForwardCall.covered {c : Call} (h : ForwardCall d c)
    (hfaithful : scheduler.Faithful census) (hversions : d.version ≠ d.previousVersion)
    (hcovered : Covered census d w) : Covered census d (scheduler c w).2 := by
  have hne := Deployment.fresh_ne_replaced hversions
  have hresult := hfaithful.asked_or_same c w
  cases h with
  | ask =>
    have hfresh := hfaithful.asks (.query d.appId d.version) w rfl
    have hstable := hfaithful.others (.query d.appId d.version) w _ hne.symm
    exact ⟨le_of_le_of_eq hcovered.fresh hfresh.symm,
      le_of_le_of_eq hcovered.stable hstable.symm⟩
  | @retire kept hkept =>
    have hfresh := hfaithful.others (.setCount d.appId d.previousVersion kept) w _ hne
    refine ⟨le_of_le_of_eq hcovered.fresh hfresh.symm, ?_⟩
    rcases hresult with ⟨count, hcount, hdone⟩ | hsame
    · obtain rfl := Option.some.inj hcount
      exact le_of_le_of_eq hkept hdone.symm
    · exact le_of_le_of_eq hcovered.stable hsame.symm
  | @start started hrises =>
    have hstable := hfaithful.others (.setCount d.appId d.version started) w _ hne.symm
    refine ⟨?_, le_of_le_of_eq hcovered.stable hstable.symm⟩
    rcases hresult with ⟨count, hcount, hdone⟩ | hsame
    · obtain rfl := Option.some.inj hcount
      exact le_of_le_of_eq hrises hdone.symm
    · exact le_of_le_of_eq hcovered.fresh hsame.symm
  | finish hreached =>
    have hfresh := hfaithful.others (.remove d.appId d.previousVersion) w _ hne
    refine ⟨le_of_le_of_eq hcovered.fresh hfresh.symm, ?_⟩
    omega

/-! ## Ticks -/

section

variable {policy : StepPolicy} {now : UInt64} {trace : List (Exchange (Store × Rest))}
  {made : Store × Rest}

/-- Calls that go forward leave the record covered all the way. -/
theorem Covered.along (h : Covered census d w) (hfaithful : scheduler.Faithful census)
    (hversions : d.version ≠ d.previousVersion) (hmakes : scheduler.Makes w trace made)
    (hcalls : ∀ e ∈ trace, ForwardCall d e.call) :
    (∀ e ∈ trace, Covered census d e.after) ∧ Covered census d made :=
  hmakes.keeps (fun _ _ hcall hcovered => hcall.covered hfaithful hversions hcovered) hcalls h

/-- After stable instances have been retired the rest covers the record. -/
theorem Retirement.covered {kept : UInt32} (h : Retirement d kept trace)
    (hless : kept.toNat ≤ d.stableInstances.toNat) (hfaithful : scheduler.Faithful census)
    (hversions : d.version ≠ d.previousVersion) (hmakes : scheduler.Makes w trace made)
    (hcovered : Covered census d w) : Covered census { d with stableInstances := kept } made := by
  have hstable := hcovered.stable
  cases h with
  | unneeded =>
    obtain rfl := hmakes.nil_inv
    exact ⟨hcovered.fresh, by dsimp only; omega⟩
  | retired =>
    obtain ⟨heq, hmakes⟩ := hmakes.cons_inv
    obtain rfl := hmakes.nil_inv
    have hkept := hfaithful.of_setCount heq
    have hfresh := hfaithful.of_other heq (Deployment.fresh_ne_replaced hversions)
    exact ⟨le_of_le_of_eq hcovered.fresh hfresh.symm,
      le_of_le_of_eq (Nat.min_le_right _ _) hkept.symm⟩

/-- After new instances have been moved toward the limit they cover the record. -/
theorem Movement.covered {goal : ScaleGoal} {step : ScaleStep}
    (h : Movement policy goal d trace (d', .ok step))
    (hwithin : d.deployingInstances.toNat ≤ goal.limit.toNat)
    (hfaithful : scheduler.Faithful census) (hversions : d.version ≠ d.previousVersion)
    (hmakes : scheduler.Makes w trace made) (hcovered : Covered census d w) :
    Covered census d' made := by
  cases h with
  | reached | held =>
    obtain rfl := hmakes.nil_inv
    exact hcovered
  | moved _ hlimit =>
    obtain ⟨heq, hmakes⟩ := hmakes.cons_inv
    obtain rfl := hmakes.nil_inv
    have hfresh := hfaithful.of_setCount heq
    have hsame := hfaithful.of_other heq (Deployment.fresh_ne_replaced hversions).symm
    have hne : d.deployingInstances.toNat ≠ goal.limit.toNat := toNat_ne.mp hlimit
    have hlt : d.deployingInstances.toNat < goal.limit.toNat := by omega
    obtain ⟨hrises, -⟩ := policy.toward_of_lt hlt
    refine ⟨Nat.le_of_eq hfresh.symm, le_of_le_of_eq ?_ hsame.symm⟩
    have hstable := hcovered.stable
    dsimp only
    omega

/-- A scale step that has not failed leaves what it has made of the record covered. -/
theorem ScaleCourse.covered {goal : ScaleGoal} {step : ScaleStep}
    (h : ScaleCourse policy goal d trace (d', .ok step))
    (hwithin : d.deployingInstances.toNat ≤ goal.limit.toNat)
    (hfaithful : scheduler.Faithful census) (hversions : d.version ≠ d.previousVersion)
    (hmakes : scheduler.Makes w trace made) (hcovered : Covered census d w) :
    Covered census d' made := by
  have hask (w₁ : Store × Rest) {answer : Except SchedulerError Health}
      (heq : scheduler (.query d.appId d.version) w = (answer, w₁)) : Covered census d w₁ := by
    have hasked := ForwardCall.ask.covered hfaithful hversions hcovered
    rwa [heq] at hasked
  cases h with
  | waiting =>
    obtain ⟨heq, hmakes⟩ := hmakes.cons_inv
    obtain rfl := hmakes.nil_inv
    exact hask _ heq
  | stepped hgoal health hcovers w₁ hretiring hmoving =>
    obtain ⟨heq, hmakes⟩ := Scheduler.Makes.cons_inv hmakes
    obtain ⟨w₂, hretires, hmoves⟩ := hmakes.append_inv
    have hretired := hretiring.covered (d.stableGoal_le health) hfaithful hversions hretires
      (hask _ heq)
    exact hmoving.covered hwithin hfaithful hversions hmoves hretired

/-- What follows a canary step does not touch the counts. -/
theorem Covered.afterCanaryStep (h : Covered census d w) (u : Updater) (c : Canary)
    (step : ScaleStep) : Covered census (u.afterCanaryStep c step d) w := by
  unfold Updater.afterCanaryStep
  split
  · exact ⟨h.fresh, h.stable⟩
  · split
    · exact ⟨h.fresh, h.stable⟩
    · exact h

/-- A tick that goes forward leaves the record that it writes covered. Where it fails, the
record has its old counts, which the calls have kept covered. -/
theorem TickCourse.covered {command : Command} {outcome : Outcome Unit} (hgated : Gated d)
    (hcommand : d.command? = some command) (hforward : command ≠ .cancel)
    (hcourse : TickCourse ⟨policy, now⟩ d command trace outcome)
    (hfaithful : scheduler.Faithful census) (hversions : d.version ≠ d.previousVersion)
    (hmakes : scheduler.Makes w trace made) (hcovered : Covered census d w) :
    Covered census (Updater.settled ⟨policy, now⟩ command d d outcome) made := by
  have hend := (hcovered.along hfaithful hversions hmakes
    (hcourse.calls hgated hcommand hforward)).2
  have hstart : Covered census (d.setPhase .deploying) w := ⟨hcovered.fresh, hcovered.stable⟩
  have hwithin := hgated.within
  cases hcourse with
  | scaleRefused | scaleFailed | unfinalized | canaryRefused | canaryMissing | canaryFailed =>
    exact hend.of_alike (Updater.alike_settled_error ..).1
  | canaryIdle => exact hend.of_alike (Updater.alike_settled_ok (Alike.refl d))
  | scaled _ hstep =>
    rw [Deployment.limit_of_none (Deployment.command?_eq_scale hcommand).2] at hwithin
    exact (hstep.covered hwithin hfaithful hversions hmakes hstart).of_alike
      (Updater.alike_settled_ok (Alike.refl _))
  | finalized _ hstep hfinished =>
    rw [Deployment.limit_of_none (Deployment.command?_eq_scale hcommand).2] at hwithin
    obtain rfl := hstep.eq_of_finished hfinished
    obtain ⟨between, hscales, hremoves⟩ := hmakes.append_inv
    obtain ⟨heq, hnone⟩ := hremoves.cons_inv
    obtain rfl := hnone.nil_inv
    have hreached := (hstep.covered hwithin hfaithful hversions hscales hstart).fresh
    have hfresh := hfaithful.of_other heq (Deployment.fresh_ne_replaced hversions)
    refine Covered.of_alike ⟨?_, Nat.le_trans (Nat.min_le_right _ _) (Nat.zero_le _)⟩
      (Updater.alike_settled_ok (Alike.refl _))
    exact le_of_le_of_eq hreached hfresh.symm
  | canaried _ hcanary hstep =>
    rw [Deployment.limit_of_some hcanary] at hwithin
    exact ((hstep.covered hwithin hfaithful hversions hmakes hstart).afterCanaryStep ..).of_alike
      (Updater.alike_settled_ok (Alike.refl _))
  | cancelIdle | cancelRefused | unrestored | unremoved | canceled => exact absurd rfl hforward

/-- The call of a cancel that restores the stable version leaves enough instances, even if it
fails. -/
theorem Scheduler.Faithful.restores (h : scheduler.Faithful census)
    (hversions : d.version ≠ d.previousVersion) {answer : Except SchedulerError Unit}
    (heq : scheduler (.setCount d.appId d.previousVersion d.originalInstances) w = (answer, w'))
    (hlive : d.floor ≤ census.live d w) : d.floor ≤ census.live d w' := by
  have hfloor : d.floor ≤ d.originalInstances.toNat := Nat.min_le_left _ _
  have hother := h.of_other heq (Deployment.fresh_ne_replaced hversions)
  have hresult := h.asked_or_same (.setCount d.appId d.previousVersion d.originalInstances) w
  rw [heq] at hresult
  simp only [Census.live] at hlive ⊢
  rcases hresult with ⟨count, hcount, hdone⟩ | hsame
  · obtain rfl := Option.some.inj hcount
    have hdone : census.of w' (d.appId, d.previousVersion) = d.originalInstances.toNat := hdone
    omega
  · have hsame : census.of w' (d.appId, d.previousVersion) =
      census.of w (d.appId, d.previousVersion) := hsame
    omega

/-- Once the stable version is restored, the new one may be removed. -/
theorem Scheduler.Faithful.removes (h : scheduler.Faithful census)
    (hversions : d.version ≠ d.previousVersion) {answer : Except SchedulerError UInt32}
    (hrestored : census.of w (d.appId, d.previousVersion) = d.originalInstances.toNat)
    (heq : scheduler (.remove d.appId d.version) w = (answer, w')) :
    d.floor ≤ census.live d w' := by
  have hfloor : d.floor ≤ d.originalInstances.toNat := Nat.min_le_left _ _
  have hkept := h.of_other heq (Deployment.fresh_ne_replaced hversions).symm
  simp only [Census.live]
  omega

/-- A cancel restores the stable version before it removes the new one, so that enough instances
are left at any time. -/
theorem TickCourse.restores {outcome : Outcome Unit} (hcanceling : d.phase = .canceling)
    (hcourse : TickCourse ⟨policy, now⟩ d .cancel trace outcome)
    (hfaithful : scheduler.Faithful census) (hversions : d.version ≠ d.previousVersion)
    (hmakes : scheduler.Makes w trace made) (hlive : d.floor ≤ census.live d w) :
    (∀ e ∈ trace, d.floor ≤ census.live d e.after) ∧ d.floor ≤ census.live d made := by
  cases hcourse with
  | cancelIdle hphase => simp [hphase] at hcanceling
  | cancelRefused hphase => simp [hphase] at hcanceling
  | unrestored =>
    obtain ⟨hfirst, hnone⟩ := hmakes.cons_inv
    obtain rfl := hnone.nil_inv
    have hrestored := hfaithful.restores hversions hfirst hlive
    exact ⟨by simpa using hrestored, hrestored⟩
  | unremoved | canceled =>
    obtain ⟨hfirst, hrest⟩ := hmakes.cons_inv
    obtain ⟨hsecond, hnone⟩ := hrest.cons_inv
    obtain rfl := hnone.nil_inv
    have hrestored := hfaithful.restores hversions hfirst hlive
    have hremoved := hfaithful.removes hversions (hfaithful.of_setCount hfirst) hsecond
    exact ⟨by simpa using ⟨hrestored, hremoved⟩, hremoved⟩

end

/-! ## Moves and runs -/

/-- There are enough instances, and until a cancel they cover the record. -/
structure Backed (census : Census Rest) (d : Deployment) (w : Store × Rest) : Prop where
  /-- There are never fewer instances than the floor. -/
  live : d.floor ≤ census.live d w
  /-- Before a cancel the instances cover the record. -/
  covered : d.phase ≠ .canceling → d.phase ≠ .canceled → Covered census d w

private theorem Census.live_of_terms (census : Census Rest) (h : d'.terms = d.terms)
    (w : Store × Rest) : census.live d' w = census.live d w := by
  rw [live, live, Deployment.fresh_of_terms h, Deployment.replaced_of_terms h]

/-- Something has happened that leaves the record and the instances of the application. Their
health may have changed. -/
structure Harmless (census : Census Rest) (id appId : String) (w w' : Store × Rest) : Prop where
  /-- The record has been left alone. -/
  beside : Beside id w w'
  /-- No instance of the application has come or gone. -/
  instances : ∀ version, census.of w' (appId, version) = census.of w (appId, version)

private theorem Backed.of_instances (h : Backed census d w)
    (hsame : ∀ version, census.of w' (d.appId, version) = census.of w (d.appId, version)) :
    Backed census d w' := by
  refine ⟨?_, fun hcanceling hcanceled => (h.covered hcanceling hcanceled).of_census hsame⟩
  have hlive := h.live
  rwa [Census.live, hsame, hsame]

/-- What is said about the record after an operator request: it has the same counts, and it is
being canceled if it was. -/
theorem Backed.of_request (h : Backed census d w) (halike : Alike { d with canary := d'.canary } d')
    (hphase : d.phase = .canceling ∨ d.phase = .canceled → d'.phase = d.phase) :
    Backed census d' w := by
  constructor
  · rw [Deployment.floor_of_terms halike.terms, census.live_of_terms halike.terms]
    exact h.live
  · intro hcanceling hcanceled
    have hcovered : Covered census d w := by
      refine h.covered (fun heq => ?_) (fun heq => ?_)
      · exact hcanceling ((hphase (Or.inl heq)).trans heq)
      · exact hcanceled ((hphase (Or.inr heq)).trans heq)
    have hstripped : Covered census { d with canary := d'.canary } w :=
      ⟨hcovered.fresh, hcovered.stable⟩
    exact hstripped.of_alike halike

/-- A cancel request leaves the instances, and enough of them. -/
theorem Backed.canceled (h : Backed census d w) : Backed census (Operator.canceled d) w := by
  unfold Operator.canceled Deployment.requestCancel?
  split
  · exact h.of_request ⟨rfl, rfl, rfl, rfl, rfl⟩ fun _ => rfl
  · next hactive =>
    refine h.of_request ⟨rfl, rfl, rfl, rfl, rfl⟩ fun hphase => ?_
    rcases hphase with hphase | hphase
    · exact hphase.symm
    · simp [hphase, Phase.isTerminal] at hactive

/-- A promotion leaves the instances, and enough of them. -/
theorem Backed.promoted (h : Backed census d w) : Backed census (Operator.promoted d) w := by
  unfold Operator.promoted Deployment.promote?
  split
  · next hpaused =>
    refine h.of_request ⟨rfl, rfl, rfl, rfl, rfl⟩ fun hphase => ?_
    simp [hpaused] at hphase
  · exact h.of_request ⟨rfl, rfl, rfl, rfl, rfl⟩ fun _ => rfl

section

variable {policy : StepPolicy} {id : String} {trace : List (Exchange (Store × Rest))}

/-- A tick that the phase calls for leaves enough instances after each of its calls. -/
theorem Backed.tick {now : UInt64} {command : Command} {outcome : Outcome Unit}
    {made : Store × Rest} (h : Backed census d w) (hgated : Gated d)
    (hbalanced : Balanced policy d) (hversions : d.version ≠ d.previousVersion)
    (hfaithful : scheduler.Faithful census) (hcommand : d.command? = some command)
    (hcourse : TickCourse ⟨policy, now⟩ d command trace outcome)
    (hmakes : scheduler.Makes w trace made) :
    (∀ e ∈ trace, d.floor ≤ census.live d e.after) ∧
      Backed census (Updater.settled ⟨policy, now⟩ command d d outcome) made := by
  have hmove := RecordMove.tick now hcommand hcourse
  have hadvance := hmove.advance hgated
  have hterms := hmove.terms_eq
  by_cases hcancel : command = .cancel
  · subst hcancel
    have hcanceling := Deployment.command?_eq_cancel hcommand
    obtain ⟨htrace, hend⟩ := hcourse.restores hcanceling hfaithful hversions hmakes h.live
    refine ⟨htrace, ?_, fun hne hne' => ?_⟩
    · rwa [Deployment.floor_of_terms hterms, census.live_of_terms hterms]
    · rcases hadvance.stays_canceled (Or.inl hcanceling) with heq | heq
      · exact absurd heq hne
      · exact absurd heq hne'
  · have hactive : d.phase ≠ .canceling ∧ d.phase ≠ .canceled := by
      unfold Deployment.command? at hcommand
      cases hphase : d.phase <;> simp_all
    have hcovered := h.covered hactive.1 hactive.2
    have htrace := (hcovered.along hfaithful hversions hmakes
      (hcourse.calls hgated hcommand hcancel)).1
    have hend := hcourse.covered hgated hcommand hcancel hfaithful hversions hmakes hcovered
    refine ⟨fun e he => (htrace e he).floor_le_live hgated hbalanced, ?_, fun _ _ => hend⟩
    exact hend.floor_le_live (hadvance.gated hgated) (hadvance.balanced hgated hbalanced)

/-- A move leaves enough instances after each of its calls. -/
theorem Move.backed (hfaithful : scheduler.Faithful census)
    (hmove : Move scheduler policy id (Harmless census id d.appId) w trace w')
    (hd : w.1.Holds id d) (hgated : Gated d) (hbalanced : Balanced policy d)
    (hversions : d.version ≠ d.previousVersion) (h : Backed census d w) :
    ∃ d', w'.1.Holds id d' ∧ RecordMove policy d trace d' ∧
      (∀ e ∈ trace, d.floor ≤ census.live d e.after) ∧ Backed census d' w' := by
  cases hmove with
  | pass now w =>
    rcases Updater.drive_spec ⟨policy, now⟩ (hfaithful.spares_id id) hd with
      ⟨-, htrace, hdrive⟩ | ⟨command, outcome, made, hcommand, hcourse, hmakes, hheld, hsame⟩
    · rw [htrace, hdrive]
      exact ⟨d, hd, .idle, by simp, h⟩
    · obtain ⟨htrace, hbacked⟩ :=
        h.tick hgated hbalanced hversions hfaithful hcommand hcourse hmakes
      exact ⟨_, hheld, .tick now hcommand hcourse, htrace,
        hbacked.of_instances fun _ => census.of_eq hsame.1 hsame.2 _⟩
  | cancelRequest =>
    have hid := (Operator.id_canceled d).trans hd.own
    rw [Operator.requestCancel_eq_write hd]
    exact ⟨_, w.1.holds_write_of_id hid, .cancelRequest, by simp,
      h.canceled.of_instances fun _ => rfl⟩
  | promotion =>
    have hid := (Operator.id_promoted d).trans hd.own
    rw [Operator.promote_eq_write hd]
    exact ⟨_, w.1.holds_write_of_id hid, .promotion, by simp,
      h.promoted.of_instances fun _ => rfl⟩
  | aside haside =>
    exact ⟨d, hd.of_get?_eq haside.beside, .idle, by simp, h.of_instances haside.instances⟩

/-- What carries a run: the record of the request lies within its gate and adds up to enough
instances, and these are there. -/
structure Standing (policy : StepPolicy) (census : Census Rest) (d₀ d : Deployment)
    (w : Store × Rest) : Prop where
  /-- The record has the terms of the request. -/
  terms : d.terms = d₀.terms
  /-- It lies within its gate. -/
  gated : Gated d
  /-- Its counts add up to enough. -/
  balanced : Balanced policy d
  /-- The instances are there. -/
  backed : Backed census d w

/-- All along a run there are enough instances after every call, and at its end what carries it
still stands. -/
theorem Run.standing {d₀ : Deployment} (hfaithful : scheduler.Faithful census)
    (hversions : d₀.version ≠ d₀.previousVersion) (hd₀ : w.1.Holds id d₀)
    (hstart : Standing policy census d₀ d₀ w)
    (hrun : Run scheduler policy id (Harmless census id d₀.appId) w trace w') :
    (∀ e ∈ trace, d₀.floor ≤ census.live d₀ e.after) ∧
      ∃ d, w'.1.Holds id d ∧ Standing policy census d₀ d w' := by
  induction hrun with
  | start => exact ⟨by simp, d₀, hd₀, hstart⟩
  | @move w₁ w₂ trace next hrun hmove ih =>
    obtain ⟨htrace, d, hd, hstanding⟩ := ih
    have happ : d₀.appId = d.appId := (congrArg Terms.appId hstanding.terms).symm
    rw [happ] at hmove
    obtain ⟨d', hd', hrecord, hnext, hbacked⟩ := hmove.backed hfaithful hd hstanding.gated
      hstanding.balanced (Deployment.versions_of_terms hstanding.terms hversions) hstanding.backed
    have hadvance := hrecord.advance hstanding.gated
    refine ⟨fun e he => ?_, d', hd', hrecord.terms_eq.trans hstanding.terms,
      hadvance.gated hstanding.gated, hadvance.balanced hstanding.gated hstanding.balanced, hbacked⟩
    rcases List.mem_append.mp he with he | he
    · exact htrace e he
    · have hlive := hnext e he
      rwa [Deployment.floor_of_terms hstanding.terms, census.live_of_terms hstanding.terms]
        at hlive

end

/-- Along every run of a deployment with a scheduler that keeps its contract, after each single
call and at the end: both versions together have at least as many instances as there were or
are desired, whichever is less. With a valid policy the record never asks for more than there
were, or than are desired and one step beyond. -/
theorem Run.available {policy : StepPolicy} {request : Request} {now : UInt64} {d₀ : Deployment}
    {store created : Store} {rest : Rest} {trace : List (Exchange (Store × Rest))}
    (hnew : Deployment.new request now = .ok d₀) (hcreate : store.create d₀ = .ok created)
    (hfaithful : scheduler.Faithful census)
    (hold : census.of (created, rest) (request.appId, request.previousVersion) =
      request.originalInstances.toNat)
    (hrun : Run scheduler policy d₀.id (Harmless census d₀.id request.appId) (created, rest)
      trace w) :
    (∀ e ∈ trace, min request.originalInstances.toNat request.desiredWebInstances.toNat ≤
      census.of e.after (request.appId, request.previousVersion) +
        census.of e.after (request.appId, request.version)) ∧
    min request.originalInstances.toNat request.desiredWebInstances.toNat ≤
      census.of w (request.appId, request.previousVersion) +
        census.of w (request.appId, request.version) ∧
    ∃ d, w.1.deployment d₀.id = .ok d ∧
      (policy.fault? = none → d.stableInstances.toNat + d.deployingInstances.toNat ≤
        max request.originalInstances.toNat (request.desiredWebInstances.toNat +
          (policy.step request.desiredWebInstances).toNat)) := by
  obtain ⟨hbegin, hsound⟩ := Deployment.new_eq_ok hnew
  have hheld : (created, rest).1.Holds d₀.id d₀ := Store.holds_create hcreate
  subst hbegin
  have hgated := gated_begin hsound now
  have hbalanced := balanced_begin policy request now
  have hcovered : Covered census (Deployment.begin request now) (created, rest) :=
    ⟨Nat.zero_le _, le_of_le_of_eq (Nat.min_le_right _ _) hold.symm⟩
  have hbacked : Backed census (Deployment.begin request now) (created, rest) :=
    ⟨hcovered.floor_le_live hgated hbalanced, fun _ _ => hcovered⟩
  obtain ⟨htrace, d, hd, hstanding⟩ := hrun.standing hfaithful hsound.versions hheld
    ⟨rfl, hgated, hbalanced, hbacked⟩
  have hlive := hstanding.backed.live
  rw [Deployment.floor_of_terms hstanding.terms, census.live_of_terms hstanding.terms] at hlive
  refine ⟨htrace, hlive, d, hd.deployment, fun hvalid => ?_⟩
  have hbounded := hstanding.balanced.bounded hvalid
  have horiginal : d.originalInstances = request.originalInstances :=
    congrArg Terms.originalInstances hstanding.terms
  have hdesired : d.desiredWebInstances = request.desiredWebInstances :=
    congrArg Terms.desiredWebInstances hstanding.terms
  rw [horiginal, hdesired] at hbounded
  unfold StepPolicy.size at hbounded
  omega

/-- After the first pass a cancel is asked for. -/
theorem available_until_cancel :
    let d₀ := Deployment.begin .canaryOfOne 0
    let w := (Store.empty.write d₀, Request.canaryOfOne.counts)
    let u : Updater := ⟨.fraction 50, 1⟩
    let driven := u.drive Scheduler.counting d₀.id w
    let after := ((Operator.requestCancel driven.1 d₀.id).2, driven.2)
    (∀ e ∈ u.driveTrace Scheduler.counting d₀.id w ++ [],
      min 3 2 ≤ Scheduler.numbers.of e.after ("shop", "1") +
        Scheduler.numbers.of e.after ("shop", "2")) ∧
    min 3 2 ≤ Scheduler.numbers.of after ("shop", "1") +
      Scheduler.numbers.of after ("shop", "2") ∧
    ∃ d, after.1.deployment d₀.id = .ok d ∧
      (StepPolicy.fault? (.fraction 50) = none →
        d.stableInstances.toNat + d.deployingInstances.toNat ≤
          max 3 (2 + (StepPolicy.step (.fraction 50) 2).toNat)) := by
  intro d₀ w u driven after
  have hnew : Deployment.new .canaryOfOne 0 = .ok d₀ := rfl
  have hcreate : Store.empty.create d₀ = .ok w.1 := rfl
  have hpass : Run Scheduler.counting (.fraction 50) d₀.id
      (Harmless Scheduler.numbers d₀.id "shop") w ([] ++ u.driveTrace Scheduler.counting d₀.id w)
      driven := (Run.start w).move (.pass 1 w)
  rw [List.nil_append] at hpass
  exact Run.available hnew hcreate Scheduler.exact_counting.toFaithful
    (Request.counts_previousVersion _ _) (hpass.move (.cancelRequest driven))

end Rollout
