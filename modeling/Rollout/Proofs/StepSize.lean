import Rollout.Tick.Basic

/-!
# Step sizes in natural numbers

The counts of a deployment are machine words. The computations of a tick never leave their
range, so they are restated here for natural numbers, in which the invariants of a rollout are
proved.
-/

namespace Rollout

/-- The smaller of two counts is the smaller number. -/
theorem toNat_min (a b : UInt32) : (min a b).toNat = min a.toNat b.toNat := by
  change (if a ≤ b then a else b).toNat = _
  split
  · next h => rw [UInt32.le_iff_toNat_le] at h; omega
  · next h => rw [UInt32.le_iff_toNat_le] at h; omega

private theorem toNat_max (a b : UInt32) : (max a b).toNat = max a.toNat b.toNat := by
  change (if a ≤ b then b else a).toNat = _
  split
  · next h => rw [UInt32.le_iff_toNat_le] at h; omega
  · next h => rw [UInt32.le_iff_toNat_le] at h; omega

/-- A difference of counts that does not go below zero is that of the numbers. -/
theorem toNat_sub {a b : UInt32} (h : b.toNat ≤ a.toNat) : (a - b).toNat = a.toNat - b.toNat :=
  UInt32.toNat_sub_of_le a b (UInt32.le_iff_toNat_le.mpr h)

/-- A sum of counts that stays in their range is that of the numbers. -/
theorem toNat_add {a b : UInt32} (h : a.toNat + b.toNat < UInt32.size) :
    (a + b).toNat = a.toNat + b.toNat := by
  rw [UInt32.toNat_add]
  exact Nat.mod_eq_of_lt h

/-- Different counts are different numbers. -/
theorem toNat_ne {a b : UInt32} : a ≠ b ↔ a.toNat ≠ b.toNat := by
  rw [ne_eq, ← UInt32.toNat_inj]

/-! ## Policies -/

namespace StepPolicy

/-- The step over a distance, in natural numbers. -/
def size (policy : StepPolicy) (remaining : UInt32) : Nat :=
  (policy.step remaining).toNat

/-- There is no step where there is nothing left to go. -/
theorem size_zero (policy : StepPolicy) : policy.size 0 = 0 := by
  simp [size, step]

/-- A step is at least one and goes at most to the end. -/
theorem size_eq (policy : StepPolicy) {remaining : UInt32} (h : remaining ≠ 0) :
    policy.size remaining = min (max (policy.raw remaining).toNat 1) remaining.toNat := by
  rw [size, step, if_neg h, toNat_min, toNat_max]
  rfl

/-- A step never goes further than the distance. -/
theorem size_le (policy : StepPolicy) (remaining : UInt32) :
    policy.size remaining ≤ remaining.toNat := by
  by_cases h : remaining = 0
  · rw [h, size_zero]
    exact Nat.zero_le _
  · rw [size_eq policy h]
    omega

/-- While there is any distance, a step goes on. -/
theorem size_pos (policy : StepPolicy) {remaining : UInt32} (h : 0 < remaining.toNat) :
    0 < policy.size remaining := by
  have hne : remaining ≠ 0 := toNat_ne.mpr (Nat.ne_of_gt h)
  rw [size_eq policy hne]
  omega

/-- The product of a distance and a percentage is within 64 bits. -/
theorem toNat_product (remaining percent : UInt32) :
    (remaining.toUInt64 * percent.toUInt64).toNat = remaining.toNat * percent.toNat := by
  have hlt : remaining.toNat * percent.toNat < UInt32.size * UInt32.size :=
    Nat.mul_lt_mul'' remaining.toNat_lt_size percent.toNat_lt_size
  rw [UInt64.toNat_mul, UInt32.toNat_toUInt64, UInt32.toNat_toUInt64]
  exact Nat.mod_eq_of_lt hlt

/-- A percentage of a distance is no more than the distance. -/
theorem share_le {percent : Nat} (h : percent ≤ 100) (remaining : Nat) :
    remaining * percent / 100 ≤ remaining :=
  Nat.div_le_of_le_mul (by rw [Nat.mul_comm 100]; exact Nat.mul_le_mul_left _ h)

/-- A share of at most a hundred percent is computed without a loss. -/
theorem toNat_raw_fraction {percent : UInt32} (h : percent.toNat ≤ 100) (remaining : UInt32) :
    ((fraction percent).raw remaining).toNat = remaining.toNat * percent.toNat / 100 := by
  have hlt := Nat.lt_of_le_of_lt (share_le h remaining.toNat) remaining.toNat_lt_size
  rw [raw, UInt64.toNat_toUInt32, UInt64.toNat_div, toNat_product]
  exact Nat.mod_eq_of_lt hlt

/-- A valid policy names at most a hundred percent. -/
theorem toNat_percent_of_valid {percent : UInt32} (hvalid : (fraction percent).fault? = none) :
    percent.toNat ≤ 100 := by
  simp only [fault?, ite_eq_right_iff, reduceCtorEq, imp_false, not_or] at hvalid
  exact UInt32.le_iff_toNat_le.mp (UInt32.not_lt.mp hvalid.2)

/-- The size that a valid policy names does not shrink as the distance grows. -/
theorem raw_mono {policy : StepPolicy} (hvalid : policy.fault? = none) {near far : UInt32}
    (h : near.toNat ≤ far.toNat) : (policy.raw near).toNat ≤ (policy.raw far).toNat := by
  cases policy with
  | fixed instances => exact Nat.le_refl _
  | fraction percent =>
    have hpercent := toNat_percent_of_valid hvalid
    rw [toNat_raw_fraction hpercent, toNat_raw_fraction hpercent]
    exact Nat.div_le_div_right (Nat.mul_le_mul_right _ h)

/-- The steps of a valid policy do not shrink as the distance grows. -/
theorem size_mono {policy : StepPolicy} (hvalid : policy.fault? = none) {near far : UInt32}
    (h : near.toNat ≤ far.toNat) : policy.size near ≤ policy.size far := by
  by_cases hnear : near = 0
  · rw [hnear, size_zero]
    exact Nat.zero_le _
  · have hzero : (0 : UInt32).toNat = 0 := rfl
    have hpos : near.toNat ≠ 0 := toNat_ne.mp hnear
    have hfar : far ≠ 0 := toNat_ne.mpr (by omega)
    have hraw := raw_mono hvalid h
    rw [size_eq policy hnear, size_eq policy hfar]
    omega

/-! ## Moves -/

/-- From below the limit a count rises by one step. -/
theorem toNat_toward_of_lt (policy : StepPolicy) {limit current : UInt32}
    (h : current.toNat < limit.toNat) :
    (policy.toward limit current).toNat = current.toNat + policy.size (limit - current) := by
  have hsize := policy.size_le (limit - current)
  rw [toNat_sub (Nat.le_of_lt h)] at hsize
  have hlimit := limit.toNat_lt_size
  rw [toward, if_pos (UInt32.lt_iff_toNat_lt.mpr h)]
  exact toNat_add (by unfold size at hsize; omega)

/-- A count below the limit rises, but not beyond the limit. -/
theorem toward_of_lt (policy : StepPolicy) {limit current : UInt32}
    (h : current.toNat < limit.toNat) :
    current.toNat < (policy.toward limit current).toNat ∧
      (policy.toward limit current).toNat ≤ limit.toNat := by
  have hsub := toNat_sub (a := limit) (b := current) (Nat.le_of_lt h)
  have hle := policy.size_le (limit - current)
  have hleft : 0 < (limit - current).toNat := by omega
  have hpos := policy.size_pos hleft
  rw [toNat_toward_of_lt policy h]
  omega

/-- From the limit or above it a count falls by one step. -/
theorem toNat_toward_of_ge (policy : StepPolicy) {limit current : UInt32}
    (h : limit.toNat ≤ current.toNat) :
    (policy.toward limit current).toNat = current.toNat - policy.size (current - limit) := by
  have hsize := policy.size_le (current - limit)
  rw [toNat_sub h] at hsize
  have hnot : ¬current < limit := by
    rw [UInt32.lt_iff_toNat_lt]
    omega
  rw [toward, if_neg hnot]
  exact toNat_sub (Nat.le_trans hsize (Nat.sub_le _ _))

/-- A count above the limit falls, but not below the limit. -/
theorem toward_of_gt (policy : StepPolicy) {limit current : UInt32}
    (h : limit.toNat < current.toNat) :
    limit.toNat ≤ (policy.toward limit current).toNat ∧
      (policy.toward limit current).toNat < current.toNat := by
  have hdistance := toNat_sub (a := current) (b := limit) (Nat.le_of_lt h)
  have hle := policy.size_le (current - limit)
  have hleft : 0 < (current - limit).toNat := by omega
  have hpos := policy.size_pos hleft
  rw [toNat_toward_of_ge policy (Nat.le_of_lt h)]
  omega

end StepPolicy

/-! ## Stable instances and canary targets -/

/-- The stable instances to keep, in natural numbers. -/
theorem Deployment.toNat_stableGoal (d : Deployment) (health : Health) :
    (d.stableGoal health).toNat =
      min (d.desiredWebInstances.toNat - min health.healthy.toNat d.deployingInstances.toNat)
        d.stableInstances.toNat := by
  unfold stableGoal
  dsimp only
  rw [toNat_min]
  have hmin := toNat_min health.healthy d.deployingInstances
  split
  · next h =>
    rw [UInt32.le_iff_toNat_le] at h
    rw [toNat_sub h, hmin]
  · next h =>
    rw [UInt32.le_iff_toNat_le] at h
    have hzero : (0 : UInt32).toNat = 0 := rfl
    omega

/-- Stable instances are retired, never started. -/
theorem Deployment.stableGoal_le (d : Deployment) (health : Health) :
    (d.stableGoal health).toNat ≤ d.stableInstances.toNat := by
  rw [d.toNat_stableGoal]
  exact Nat.min_le_right _ _

/-- When all new instances are healthy, as many stable ones are kept as are still missing. -/
theorem Deployment.toNat_stableGoal_of_covers {d : Deployment} {health : Health}
    (h : health.covers d.deployingInstances = true) :
    (d.stableGoal health).toNat =
      min (d.desiredWebInstances.toNat - d.deployingInstances.toNat) d.stableInstances.toNat := by
  have hhealthy : d.deployingInstances.toNat ≤ health.healthy.toNat := by
    simp only [Health.covers, Bool.and_eq_true, decide_eq_true_eq] at h
    exact UInt32.le_iff_toNat_le.mp h.2
  rw [d.toNat_stableGoal, Nat.min_eq_right hhealthy]

/-- The target that a canary is given after it has come up to its present one. -/
def Canary.nextTarget (policy : StepPolicy) (c : Canary) : UInt32 :=
  min (c.currentInstanceTarget + policy.step (c.totalInstances - c.currentInstanceTarget))
    c.totalInstances

/-- A target rises by one step toward the total. -/
theorem Canary.toNat_nextTarget (policy : StepPolicy) {c : Canary}
    (h : c.currentInstanceTarget.toNat ≤ c.totalInstances.toNat) :
    (c.nextTarget policy).toNat = c.currentInstanceTarget.toNat +
      policy.size (c.totalInstances - c.currentInstanceTarget) := by
  have hle := policy.size_le (c.totalInstances - c.currentInstanceTarget)
  rw [toNat_sub h] at hle
  have htotal := c.totalInstances.toNat_lt_size
  have hadd := toNat_add (a := c.currentInstanceTarget)
    (b := policy.step (c.totalInstances - c.currentInstanceTarget))
    (by unfold StepPolicy.size at hle; omega)
  rw [nextTarget, toNat_min, hadd]
  unfold StepPolicy.size at hle ⊢
  omega

end Rollout
