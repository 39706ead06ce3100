import Rollout.Proofs.Advance
import Rollout.Proofs.Census

/-!
# The canary gate

As long as a deployment has a canary gate, its new instances stay within the target of the gate.
The target rises only after it has been reached by healthy instances, and the canary pauses at
its total. Nothing that a scheduler answers lets a run jump the gate.
-/

namespace Rollout

/-- What a move keeps to, from one record to the next and in its calls between them. -/
structure GateKept {World : Type} (d : Deployment) (trace : List (Exchange World))
    (d' : Deployment) : Prop where
  /-- No more new instances are asked for than the target that was read. -/
  submitted : ∀ c ∈ d.canary, ∀ e ∈ trace, ∀ count,
    e.call = .setCount d.appId d.version count → count ≤ c.currentInstanceTarget
  /-- The target only rises, within a total that stays. -/
  rises : ∀ c ∈ d.canary, ∀ c' ∈ d'.canary, c.currentInstanceTarget ≤ c'.currentInstanceTarget ∧
    c'.currentInstanceTarget ≤ c'.totalInstances ∧ c'.totalInstances = c.totalInstances
  /-- A target that rises was reached, and the scheduler has said that so many new instances
  are running and healthy. -/
  permitted : ∀ c ∈ d.canary, ∀ c' ∈ d'.canary,
    c'.currentInstanceTarget ≠ c.currentInstanceTarget →
      d.deployingInstances = c.currentInstanceTarget ∧
        ∃ health w, ⟨.query d.appId d.version, .ok health, w⟩ ∈ trace ∧
          c.currentInstanceTarget ≤ health.running ∧ c.currentInstanceTarget ≤ health.healthy
  /-- A gate that is gone does not come back. -/
  released : d.canary = none → d'.canary = none
  /-- Only a cancel goes back. -/
  forward : d.phase ≠ .canceling →
    d.deployingInstances ≤ d'.deployingInstances ∧ d'.stableInstances ≤ d.stableInstances
  /-- The time of the last convergence is written only on the way into the pause. -/
  written : d'.lastHealthyAt ≠ d.lastHealthyAt → d.phase ≠ .paused ∧ d'.phase = .paused
  /-- Only a tick that has found the whole canary healthy pauses it. -/
  converged : d.phase ≠ .paused → d'.phase = .paused → d'.lastHealthyAt = some d'.updatedAt ∧
    ∃ c ∈ d'.canary, d'.deployingInstances = c.currentInstanceTarget ∧
      c.currentInstanceTarget = c.totalInstances ∧
      ∃ health w, ⟨.query d.appId d.version, .ok health, w⟩ ∈ trace ∧
        c.totalInstances ≤ health.running ∧ c.totalInstances ≤ health.healthy

section

variable {World : Type} {policy : StepPolicy} {d d' : Deployment}
  {trace : List (Exchange World)}

/-- A report that covers a number tells of that many instances that run and that many healthy ones.
-/
theorem Health.le_of_covers {health : Health} {expected : UInt32}
    (h : health.covers expected = true) :
    expected ≤ health.running ∧ expected ≤ health.healthy := by
  simpa only [covers, Bool.and_eq_true, decide_eq_true_eq] using h

/-- A move leaves the gate, takes it away or raises its target. -/
theorem Advance.canary_cases (h : Advance policy d trace d') :
    d'.canary = d.canary ∨ d'.canary = none ∨
      ∃ c, d.canary = some c ∧
        d'.canary = some { c with currentInstanceTarget := c.nextTarget policy } ∧
        d.deployingInstances = c.currentInstanceTarget ∧
        ∃ health w, ⟨.query d.appId d.version, .ok health, w⟩ ∈ trace ∧
          c.currentInstanceTarget ≤ health.running ∧
            c.currentInstanceTarget ≤ health.healthy := by
  cases h with
  | kept halike | scaled _ _ _ halike | finalized _ _ halike | canaried _ _ _ halike
  | paused _ _ _ _ _ halike | canceled _ halike => exact Or.inl halike.canary
  | promoted _ halike => exact Or.inr (Or.inl halike.canary)
  | @raised c step deploying stable _ hcanary hprogress hatCap htold halike =>
    obtain ⟨health, w, hquery, hcovers⟩ := htold
    have hreached := (hprogress.atCap hatCap).1
    rw [Deployment.limit_of_some hcanary] at hreached
    rw [hreached] at hcovers
    exact Or.inr (Or.inr ⟨c, hcanary, halike.canary, hreached, health, w, hquery,
      Health.le_of_covers hcovers⟩)

/-- A target only rises, and stays within its total. -/
theorem Advance.rises {c c' : Canary} (hgated : Gated d) (h : Advance policy d trace d')
    (hcanary : d.canary = some c) (hcanary' : d'.canary = some c') :
    c.currentInstanceTarget ≤ c'.currentInstanceTarget ∧
      c'.currentInstanceTarget ≤ c'.totalInstances ∧ c'.totalInstances = c.totalInstances := by
  have htarget := hgated.target c hcanary
  have htarget' := UInt32.le_iff_toNat_le.mpr ((h.gated hgated).target c' hcanary')
  rcases h.canary_cases with hsame | hnone | ⟨c₁, hc₁, hraised, -⟩
  · obtain rfl : c' = c := Option.some.inj (hcanary'.symm.trans (hsame.trans hcanary))
    exact ⟨UInt32.le_refl _, htarget', rfl⟩
  · simp [hnone] at hcanary'
  · obtain rfl : c₁ = c := Option.some.inj (hc₁.symm.trans hcanary)
    obtain rfl := Option.some.inj (hraised.symm.trans hcanary')
    have hrises := c₁.toNat_nextTarget policy htarget
    exact ⟨UInt32.le_iff_toNat_le.mpr (by dsimp only; omega), htarget', rfl⟩

/-- A target that rises was reached by healthy instances. -/
theorem Advance.permitted {c c' : Canary} (h : Advance policy d trace d')
    (hcanary : d.canary = some c) (hcanary' : d'.canary = some c')
    (hne : c'.currentInstanceTarget ≠ c.currentInstanceTarget) :
    d.deployingInstances = c.currentInstanceTarget ∧
      ∃ health w, ⟨.query d.appId d.version, .ok health, w⟩ ∈ trace ∧
        c.currentInstanceTarget ≤ health.running ∧ c.currentInstanceTarget ≤ health.healthy := by
  rcases h.canary_cases with hsame | hnone | ⟨c₁, hc₁, -, hreached, htold⟩
  · obtain rfl : c' = c := Option.some.inj (hcanary'.symm.trans (hsame.trans hcanary))
    exact absurd rfl hne
  · simp [hnone] at hcanary'
  · obtain rfl : c₁ = c := Option.some.inj (hc₁.symm.trans hcanary)
    exact ⟨hreached, htold⟩

/-- A gate does not come back. -/
theorem Advance.released (h : Advance policy d trace d') (hnone : d.canary = none) :
    d'.canary = none := by
  rcases h.canary_cases with hsame | hnone' | ⟨c, hc, -⟩
  · exact hsame.trans hnone
  · exact hnone'
  · simp [hc] at hnone

/-- Until a cancel is asked for, new instances only come and stable ones only go. -/
theorem Advance.forward (hgated : Gated d) (h : Advance policy d trace d')
    (hphase : d.phase ≠ .canceling) :
    d.deployingInstances ≤ d'.deployingInstances ∧ d'.stableInstances ≤ d.stableInstances := by
  rw [UInt32.le_iff_toNat_le, UInt32.le_iff_toNat_le]
  cases h with
  | kept halike | promoted _ halike =>
    rw [halike.deploying, halike.stable]
    exact ⟨Nat.le_refl _, Nat.le_refl _⟩
  | scaled _ _ hprogress halike
  | canaried _ _ hprogress halike
  | raised _ _ hprogress _ _ halike
  | paused _ _ hprogress _ _ halike =>
    rw [halike.deploying, halike.stable]
    exact ⟨hprogress.rises, hprogress.retires⟩
  | finalized _ hcanary halike =>
    have hwithin := hgated.within
    rw [Deployment.limit_of_none hcanary] at hwithin
    rw [halike.deploying, halike.stable]
    exact ⟨hwithin, Nat.zero_le _⟩
  | canceled hcanceling => exact absurd hcanceling hphase

/-- The time of convergence is written only by an advance that pauses the rollout. -/
theorem Advance.lastHealthyAt_cases (h : Advance policy d trace d') :
    d'.lastHealthyAt = d.lastHealthyAt ∨ d.phase ≠ .paused ∧ d'.phase = .paused := by
  cases h with
  | kept halike | promoted _ halike | scaled _ _ _ halike | finalized _ _ halike
  | canaried _ _ _ halike | raised _ _ _ _ _ halike | canceled _ halike =>
    exact Or.inl halike.lastHealthyAt
  | paused hactive _ _ _ _ _ hphase =>
    refine Or.inr ⟨fun heq => ?_, hphase⟩
    simp [heq, Phase.isInProgress] at hactive

/-- A canary that pauses has come up to its total. -/
theorem Advance.converged (hgated : Gated d) (h : Advance policy d trace d')
    (hleft : d.phase ≠ .paused) (hpaused : d'.phase = .paused) :
    d'.lastHealthyAt = some d'.updatedAt ∧
      ∃ c ∈ d'.canary, d'.deployingInstances = c.currentInstanceTarget ∧
        c.currentInstanceTarget = c.totalInstances ∧
        ∃ health w, ⟨.query d.appId d.version, .ok health, w⟩ ∈ trace ∧
          c.totalInstances ≤ health.running ∧ c.totalInstances ≤ health.healthy := by
  cases h with
  | kept _ hphase =>
    rcases hphase with hphase | hphase | ⟨-, hphase⟩
    · exact absurd (hphase.symm.trans hpaused) hleft
    · simp [hphase] at hpaused
    · simp [hphase] at hpaused
  | promoted _ _ hphase | scaled _ _ _ _ hphase | finalized _ _ _ hphase
  | canaried _ _ _ _ hphase | raised _ _ _ _ _ _ hphase | canceled _ _ hphase =>
    simp [hphase] at hpaused
  | @paused c step deploying stable _ hcanary hprogress hfinished htold halike =>
    obtain ⟨health, w, hquery, hcovers⟩ := htold
    obtain ⟨hreached, htotal⟩ := hprogress.finished hfinished
    have hreached : d.deployingInstances = c.totalInstances := hreached
    have htotal : deploying = c.totalInstances := htotal
    have hwithin := hgated.within
    have htarget := hgated.target c hcanary
    rw [Deployment.limit_of_some hcanary, hreached] at hwithin
    have hcap : c.currentInstanceTarget = c.totalInstances := by
      rw [← UInt32.toNat_inj]
      omega
    rw [hreached] at hcovers
    refine ⟨halike.lastHealthyAt, c, halike.canary.trans hcanary, ?_, hcap, health, w, hquery,
      Health.le_of_covers hcovers⟩
    rw [halike.deploying, hcap]
    exact htotal

/-- The calls of a move ask for no more new instances than the limit that was read. -/
theorem RecordMove.submitted (hgated : Gated d) (hversions : d.version ≠ d.previousVersion)
    (h : RecordMove policy d trace d') {e : Exchange World} (he : e ∈ trace) {count : UInt32}
    (hcall : e.call = .setCount d.appId d.version count) : count.toNat ≤ d.limit.toNat := by
  by_cases hphase : d.phase = .canceling
  · -- A cancel sets the count of the stable version only.
    have hrestores : ∀ e ∈ trace, ∀ count, e.call ≠ .setCount d.appId d.version count := by
      cases h with
      | idle | cancelRequest | promotion => simp
      | tick now hcommand hcourse =>
        cases hcourse with
        | unrestored | unremoved | canceled => simp [Ne.symm hversions]
        | cancelIdle | cancelRefused => simp
        | _ => simp [Deployment.command?, hphase] at hcommand
    exact absurd hcall (hrestores e he count)
  · have hforward := h.calls hgated hphase e he
    rw [hcall] at hforward
    generalize hsame : Call.setCount d.appId d.version count = c at hforward
    cases hforward with
    | ask | finish => cases hsame
    | retire => exact absurd (Call.setCount.inj hsame).2.1 hversions
    | start hrises hwithin =>
      obtain ⟨-, -, rfl⟩ := Call.setCount.inj hsame
      exact hwithin

/-- A move within the gate keeps to it. -/
theorem RecordMove.keeps_gate (hgated : Gated d) (hversions : d.version ≠ d.previousVersion)
    (h : RecordMove policy d trace d') : GateKept d trace d' := by
  have hadvance := h.advance hgated
  constructor
  case submitted =>
    intro c hcanary e he count hcall
    have hlimit := h.submitted hgated hversions he hcall
    rw [Deployment.limit_of_some hcanary] at hlimit
    exact UInt32.le_iff_toNat_le.mpr hlimit
  case rises =>
    intro c hcanary c' hcanary'
    exact hadvance.rises hgated hcanary hcanary'
  case permitted =>
    intro c hcanary c' hcanary' hne
    exact hadvance.permitted hcanary hcanary' hne
  case released => exact hadvance.released
  case forward => exact hadvance.forward hgated
  case written =>
    intro hne
    exact hadvance.lastHealthyAt_cases.resolve_left hne
  case converged => exact hadvance.converged hgated

end

/-! ## Runs -/

/-- What carries a run: the counts lie within one another, and a gate has the total that was
asked for. -/
structure Bounded (total : UInt32) (d : Deployment) : Prop where
  /-- The counts lie within one another. -/
  gated : Gated d
  /-- A gate has the total that was asked for. -/
  asked : ∀ c ∈ d.canary, c.totalInstances = total

/-- The record of a new canary lies within its bounds. -/
theorem bounded_begin {request : Request} {total : UInt32} (hsound : request.Sound)
    (hcanary : request.canaryTotalInstances = some total) (now : UInt64) :
    Bounded total (Deployment.begin request now) := by
  refine ⟨gated_begin hsound now, fun c hc => ?_⟩
  simp only [Deployment.begin, hcanary, Option.map_some] at hc
  obtain rfl := Option.some.inj hc
  rfl

/-- An advance stays within the bounds. -/
theorem Bounded.advance {World : Type} {policy : StepPolicy} {total : UInt32}
    {d d' : Deployment} {trace : List (Exchange World)} (h : Bounded total d)
    (hadvance : Advance policy d trace d') : Bounded total d' := by
  refine ⟨hadvance.gated h.gated, fun c' hc' => ?_⟩
  have hc' : d'.canary = some c' := hc'
  rcases hadvance.canary_cases with hsame | hnone | ⟨c, hc, hraised, -⟩
  · exact h.asked c' (hsame.symm.trans hc')
  · simp [hnone] at hc'
  · obtain rfl := Option.some.inj (hraised.symm.trans hc')
    exact h.asked c hc

variable {Rest : Type} {scheduler : Scheduler (Store × Rest)} {policy : StepPolicy}

/-- Along every run of a deployment that begins with a canary, whatever the scheduler answers:
the counts lie within one another, and every next move keeps to the gate. -/
theorem Run.gateKept {request : Request} {now : UInt64} {d₀ : Deployment} {total : UInt32}
    {store created : Store} {rest : Rest} {trace : List (Exchange (Store × Rest))}
    {w : Store × Rest} (hnew : Deployment.new request now = .ok d₀)
    (hcanary : request.canaryTotalInstances = some total)
    (hcreate : store.create d₀ = .ok created) (hspares : scheduler.Spares d₀.id)
    (hrun : Run scheduler policy d₀.id (Beside d₀.id) (created, rest) trace w) :
    ∃ d, w.1.deployment d₀.id = .ok d ∧
      (∀ c ∈ d.canary, d.deployingInstances ≤ c.currentInstanceTarget ∧
        c.currentInstanceTarget ≤ c.totalInstances ∧ c.totalInstances = total ∧
        c.totalInstances ≤ d.desiredWebInstances) ∧
      ∀ next w', Move scheduler policy d₀.id (Beside d₀.id) w next w' →
        ∃ d', w'.1.deployment d₀.id = .ok d' ∧ GateKept d next d' := by
  have haside : ∀ w w' : Store × Rest, Beside d₀.id w w' → Beside d₀.id w w' := fun _ _ h => h
  obtain ⟨hbegin, hsound⟩ := Deployment.new_eq_ok hnew
  have hheld := Store.holds_create hcreate
  have hstart : Bounded total d₀ := hbegin ▸ bounded_begin hsound hcanary now
  have hkeeps (d d' : Deployment) (next : List (Exchange (Store × Rest)))
      (hbounded : Bounded total d) (hmove : RecordMove policy d next d') : Bounded total d' :=
    hbounded.advance (hmove.advance hbounded.gated)
  obtain ⟨d, hd, ⟨hgated, htotal⟩, hterms⟩ := hrun.keeps hspares haside hkeeps hheld hstart
  have hversions : d.version ≠ d.previousVersion := by
    refine Deployment.versions_of_terms hterms ?_
    rw [hbegin]
    exact hsound.versions
  refine ⟨d, hd.deployment, fun c hc => ?_, fun next w' hmove => ?_⟩
  · have hwithin := hgated.within
    rw [Deployment.limit_of_some hc] at hwithin
    exact ⟨UInt32.le_iff_toNat_le.mpr hwithin, UInt32.le_iff_toNat_le.mpr (hgated.target c hc),
      htotal c hc, UInt32.le_iff_toNat_le.mpr (hgated.total c hc)⟩
  · obtain ⟨d', hd', hrecord⟩ := hmove.recordMove hspares haside hd
    exact ⟨d', hd'.deployment, hrecord.keeps_gate hgated hversions⟩

/-- A canary of one instance after a pass. -/
theorem gateKept_after_pass :
    let d₀ := Deployment.begin .canaryOfOne 0
    let w := (Store.empty.write d₀, Request.canaryOfOne.counts)
    let after := Updater.drive ⟨.fixed 1, 1⟩ Scheduler.counting d₀.id w
    ∃ d, after.1.deployment d₀.id = .ok d ∧
      (∀ c ∈ d.canary, d.deployingInstances ≤ c.currentInstanceTarget ∧
        c.currentInstanceTarget ≤ c.totalInstances ∧ c.totalInstances = 1 ∧
        c.totalInstances ≤ d.desiredWebInstances) ∧
      ∀ next w', Move Scheduler.counting (.fixed 1) d₀.id (Beside d₀.id) after next w' →
        ∃ d', w'.1.deployment d₀.id = .ok d' ∧ GateKept d next d' := by
  intro d₀ w after
  have hnew : Deployment.new .canaryOfOne 0 = .ok d₀ := rfl
  have hcreate : Store.empty.create d₀ = .ok w.1 := rfl
  exact Run.gateKept hnew rfl hcreate (Scheduler.exact_counting.spares_id d₀.id)
    ((Run.start w).move (.pass 1 w))

end Rollout
