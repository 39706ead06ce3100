import Mathlib.Algebra.Order.Floor.Div
import Mathlib.Algebra.Order.Ring.Nat
import Mathlib.Logic.Function.Iterate
import Rollout.Proofs.StepSize

/-!
# How many steps a distance takes

A policy that names a larger size takes longer steps at first, but these leave shorter distances,
and percentages of those may come to less than the steps of the other policy. Still it never takes
more steps in all. A step is longer over a longer distance, but by no more than the distance is, so
that of a longer distance never less is left; and then the policy with the larger size stays ahead
from step to step.
-/

namespace Rollout.StepPolicy

/-! ## Sizes in plain numbers -/

/-- What the steps of a policy are, in numbers without a bound. The percentage of a distance is
taken within 64 bits, and nothing is lost when it is cut to 32 of them. -/
def Exact : StepPolicy → Prop
  | .fixed instances => ∀ remaining : UInt32,
    ((fixed instances).step remaining).toNat = min instances.toNat remaining.toNat
  | .fraction percent => ∀ remaining : UInt32,
    (remaining.toUInt64 * percent.toUInt64).toNat = remaining.toNat * percent.toNat ∧
      ((fraction percent).raw remaining).toUInt64 =
        remaining.toUInt64 * percent.toUInt64 / 100 ∧
      ((fraction percent).step remaining).toNat =
        if remaining = 0 then 0 else max 1 (remaining.toNat * percent.toNat / 100)

private theorem pos_of_valid {instances : UInt32} (hvalid : (fixed instances).fault? = none) :
    0 < instances.toNat := by
  simp only [fault?, ite_eq_right_iff, reduceCtorEq, imp_false] at hvalid
  exact Nat.pos_of_ne_zero (toNat_ne.mp hvalid)

/-- A fixed policy goes by its number, and at most to the end. -/
theorem size_fixed {instances : UInt32} (hvalid : (fixed instances).fault? = none)
    (remaining : UInt32) :
    (fixed instances).size remaining = min instances.toNat remaining.toNat := by
  have hpos := pos_of_valid hvalid
  by_cases h : remaining = 0
  · rw [h, size_zero]
    exact (Nat.min_zero _).symm
  · rw [size_eq _ h, raw]
    omega

/-- A policy of percents goes by them rounded down, but at least by one. -/
theorem size_fraction {percent : UInt32} (hvalid : (fraction percent).fault? = none)
    (remaining : UInt32) : (fraction percent).size remaining =
      if remaining = 0 then 0 else max 1 (remaining.toNat * percent.toNat / 100) := by
  have hpercent := toNat_percent_of_valid hvalid
  have hshare := share_le hpercent remaining.toNat
  split
  · next h => rw [h, size_zero]
  · next h =>
    have hpos : remaining.toNat ≠ 0 := toNat_ne.mp h
    rw [size_eq _ h, toNat_raw_fraction hpercent]
    omega

private theorem toUInt64_raw_fraction {percent : UInt32} (hvalid : (fraction percent).fault? = none)
    (remaining : UInt32) : ((fraction percent).raw remaining).toUInt64 =
      remaining.toUInt64 * percent.toUInt64 / 100 := by
  apply UInt64.toNat_inj.mp
  rw [UInt32.toNat_toUInt64, toNat_raw_fraction (toNat_percent_of_valid hvalid),
    UInt64.toNat_div, toNat_product]
  rfl

/-- The steps of a valid policy are exact. -/
theorem exact_of_valid {policy : StepPolicy} (hvalid : policy.fault? = none) : policy.Exact := by
  cases policy with
  | fixed instances => exact size_fixed hvalid
  | fraction percent =>
    intro remaining
    exact ⟨toNat_product remaining percent, toUInt64_raw_fraction hvalid remaining,
      size_fraction hvalid remaining⟩

/-! ## Longer distances -/

/-- A percentage of a distance grows by no more than the distance. -/
theorem share_le_add {percent near far : Nat} (hpercent : percent ≤ 100) (h : near ≤ far) :
    far * percent / 100 ≤ near * percent / 100 + (far - near) := by
  have hgrowth : (far - near) * percent ≤ (far - near) * 100 := Nat.mul_le_mul_left _ hpercent
  calc far * percent / 100
      = (near * percent + (far - near) * percent) / 100 := by
        rw [← Nat.add_mul, Nat.add_sub_of_le h]
    _ ≤ (near * percent + (far - near) * 100) / 100 :=
        Nat.div_le_div_right (Nat.add_le_add_left hgrowth _)
    _ = near * percent / 100 + (far - near) := Nat.add_mul_div_right _ _ (by decide)

/-- A step grows by no more than the distance. -/
theorem size_le_add {policy : StepPolicy} (hvalid : policy.fault? = none) {near far : UInt32}
    (h : near.toNat ≤ far.toNat) :
    policy.size far ≤ policy.size near + (far.toNat - near.toNat) := by
  cases policy with
  | fixed instances =>
    rw [size_fixed hvalid, size_fixed hvalid]
    omega
  | fraction percent =>
    by_cases hnear : near = 0
    · have hle := (fraction percent).size_le far
      rw [hnear, size_zero]
      exact Nat.le_trans hle (Nat.le_of_eq (Nat.zero_add _).symm)
    · have hgrowth := share_le_add (toNat_percent_of_valid hvalid) h
      rw [size_fraction hvalid, size_fraction hvalid, if_neg hnear]
      split <;> omega

/-! ## What a step leaves -/

/-- The distance that is left after a step. -/
def left (policy : StepPolicy) (remaining : UInt32) : UInt32 :=
  remaining - policy.step remaining

private theorem toNat_left (policy : StepPolicy) (remaining : UInt32) :
    (policy.left remaining).toNat = remaining.toNat - policy.size remaining :=
  toNat_sub (policy.size_le remaining)

private theorem left_zero (policy : StepPolicy) : policy.left 0 = 0 := by
  rw [left, step, if_pos rfl]
  rfl

/-- A step leaves less of a distance. -/
theorem toNat_left_lt (policy : StepPolicy) {remaining : UInt32} (h : remaining ≠ 0) :
    (policy.left remaining).toNat < remaining.toNat := by
  have hpos : 0 < remaining.toNat := Nat.pos_of_ne_zero (toNat_ne.mp h)
  have hsize := policy.size_pos hpos
  rw [policy.toNat_left]
  omega

/-- Of a longer distance no less is left. -/
theorem left_mono {policy : StepPolicy} (hvalid : policy.fault? = none) {near far : UInt32}
    (h : near.toNat ≤ far.toNat) : (policy.left near).toNat ≤ (policy.left far).toNat := by
  have hgrowth := size_le_add hvalid h
  rw [policy.toNat_left, policy.toNat_left]
  omega

/-- Longer steps leave less. -/
theorem left_le_left {slow fast : StepPolicy} {remaining : UInt32}
    (h : slow.size remaining ≤ fast.size remaining) :
    (fast.left remaining).toNat ≤ (slow.left remaining).toNat := by
  rw [fast.toNat_left, slow.toNat_left]
  exact Nat.sub_le_sub_left h _

/-! ## Steps until nothing is left -/

/-- How many steps a distance takes. -/
def stepCount (policy : StepPolicy) (remaining : UInt32) : Nat :=
  if remaining = 0 then 0 else policy.stepCount (policy.left remaining) + 1
termination_by remaining.toNat
decreasing_by exact policy.toNat_left_lt ‹_›

private theorem stepCount_zero (policy : StepPolicy) : policy.stepCount 0 = 0 := by
  rw [stepCount, if_pos rfl]

/-- The steps over a distance are the first one and those over what it leaves. -/
theorem stepCount_of_ne_zero (policy : StepPolicy) {remaining : UInt32} (h : remaining ≠ 0) :
    policy.stepCount remaining = policy.stepCount (policy.left remaining) + 1 := by
  rw [stepCount, if_neg h]

/-- Nothing is left after that many steps, and something is left after fewer. -/
theorem iterate_left_eq_zero_iff (policy : StepPolicy) (remaining : UInt32) (k : Nat) :
    policy.left^[k] remaining = 0 ↔ policy.stepCount remaining ≤ k := by
  induction k generalizing remaining with
  | zero =>
    by_cases h : remaining = 0
    · simp [h, stepCount_zero]
    · simp [h, policy.stepCount_of_ne_zero h]
  | succ k ih =>
    rw [Function.iterate_succ_apply, ih]
    by_cases h : remaining = 0
    · simp [h, left_zero, stepCount_zero]
    · rw [policy.stepCount_of_ne_zero h, Nat.add_le_add_iff_right]

/-- A policy whose steps over equal distances are never shorter takes no more steps, even if the
other one begins further away. -/
theorem stepCount_le_stepCount {slow fast : StepPolicy} (hslow : slow.fault? = none)
    (hsize : ∀ remaining, slow.size remaining ≤ fast.size remaining) {near far : UInt32}
    (h : near.toNat ≤ far.toNat) : fast.stepCount near ≤ slow.stepCount far := by
  fun_induction stepCount slow far generalizing near with
  | case1 =>
    have hnear : near = 0 := UInt32.toNat_inj.mp (Nat.le_zero.mp h)
    rw [hnear, stepCount_zero]
  | case2 far _ ih =>
    by_cases hnear : near = 0
    · rw [hnear, stepCount_zero]
      exact Nat.zero_le _
    · -- From the second step on the distances differ, so a step of the slow policy over the one is
      -- compared with its step over the other.
      have hleft := Nat.le_trans (left_le_left (hsize near)) (left_mono hslow h)
      rw [fast.stepCount_of_ne_zero hnear]
      exact Nat.succ_le_succ (ih hleft)

/-! ## Fixed sizes -/

/-- After some steps of a fixed size that many times the size is done. -/
theorem toNat_iterate_left_fixed {instances : UInt32} (hvalid : (fixed instances).fault? = none)
    (remaining : UInt32) (k : Nat) :
    ((fixed instances).left^[k] remaining).toNat = remaining.toNat - instances.toNat * k := by
  induction k with
  | zero => rfl
  | succ k ih =>
    rw [Function.iterate_succ_apply', toNat_left, size_fixed hvalid, ih, Nat.mul_succ]
    omega

/-- A fixed policy takes as many steps as its size fits into the distance, rounded up. -/
theorem stepCount_fixed {instances : UInt32} (hvalid : (fixed instances).fault? = none)
    (remaining : UInt32) :
    (fixed instances).stepCount remaining = remaining.toNat ⌈/⌉ instances.toNat := by
  refine eq_of_forall_ge_iff fun k => ?_
  rw [ceilDiv_le_iff_le_mul (pos_of_valid hvalid), ← iterate_left_eq_zero_iff,
    ← UInt32.toNat_inj, toNat_iterate_left_fixed hvalid]
  exact Nat.sub_eq_zero_iff_le

/-- Every step goes at least one on, so no policy is slower than one instance at a time. -/
theorem stepCount_le (policy : StepPolicy) (remaining : UInt32) :
    policy.stepCount remaining ≤ remaining.toNat := by
  have hvalid : (fixed 1).fault? = none := by decide
  have hsize (remaining : UInt32) : (fixed 1).size remaining ≤ policy.size remaining := by
    rw [size_fixed hvalid]
    rcases Nat.eq_zero_or_pos remaining.toNat with hzero | hpos
    · rw [hzero]
      exact Nat.zero_le _
    · exact Nat.le_trans (Nat.min_le_left _ _) (policy.size_pos hpos)
  calc policy.stepCount remaining
      ≤ (fixed 1).stepCount remaining := stepCount_le_stepCount hvalid hsize (Nat.le_refl _)
    _ = remaining.toNat ⌈/⌉ 1 := stepCount_fixed hvalid remaining
    _ = remaining.toNat := ceilDiv_one _

/-! ## Larger sizes -/

/-- Two policies of one kind, the second of which names no smaller size than the first. -/
inductive AtMost : StepPolicy → StepPolicy → Prop where
  | fixed {instances instances' : UInt32} (h : instances ≤ instances') :
    AtMost (.fixed instances) (.fixed instances')
  | fraction {percent percent' : UInt32} (h : percent ≤ percent') :
    AtMost (.fraction percent) (.fraction percent')

/-- Over the same distance the policy with the larger size takes the longer step. -/
theorem AtMost.size_le_size {slow fast : StepPolicy} (h : slow.AtMost fast)
    (hslow : slow.fault? = none) (hfast : fast.fault? = none) (remaining : UInt32) :
    slow.size remaining ≤ fast.size remaining := by
  cases h with
  | fixed h =>
    have hle := UInt32.le_iff_toNat_le.mp h
    rw [size_fixed hslow, size_fixed hfast]
    omega
  | fraction h =>
    have hle := Nat.div_le_div_right (c := 100)
      (Nat.mul_le_mul_left remaining.toNat (UInt32.le_iff_toNat_le.mp h))
    rw [size_fraction hslow, size_fraction hfast]
    split <;> omega

/-! ## Counts that are moved -/

/-- How far a count is from its limit, on either side. -/
def distance (limit current : UInt32) : UInt32 :=
  if current < limit then limit - current else current - limit

private theorem toNat_distance (limit current : UInt32) : (distance limit current).toNat =
    (limit.toNat - current.toNat) + (current.toNat - limit.toNat) := by
  unfold distance
  split
  · next h =>
    have hlt := UInt32.lt_iff_toNat_lt.mp h
    rw [toNat_sub (Nat.le_of_lt hlt)]
    omega
  · next h =>
    have hle := UInt32.le_iff_toNat_le.mp (UInt32.not_lt.mp h)
    rw [toNat_sub hle]
    omega

private theorem distance_eq_zero_iff {limit current : UInt32} :
    distance limit current = 0 ↔ current = limit := by
  rw [← UInt32.toNat_inj, toNat_distance, ← UInt32.toNat_inj]
  change _ = 0 ↔ _
  omega

/-- A move leaves of the distance what a step leaves of it. -/
theorem distance_toward (policy : StepPolicy) (limit current : UInt32) :
    distance limit (policy.toward limit current) = policy.left (distance limit current) := by
  have hsize := policy.size_le (distance limit current)
  have hdistance := toNat_distance limit current
  apply UInt32.toNat_inj.mp
  rw [toNat_distance, toNat_left]
  by_cases h : current < limit
  · have hlt := UInt32.lt_iff_toNat_lt.mp h
    have htoward := policy.toNat_toward_of_lt hlt
    have hfrom : distance limit current = limit - current := if_pos h
    rw [← hfrom] at htoward
    omega
  · have hle := UInt32.le_iff_toNat_le.mp (UInt32.not_lt.mp h)
    have htoward := policy.toNat_toward_of_ge hle
    have hfrom : distance limit current = current - limit := if_neg h
    rw [← hfrom] at htoward
    omega

/-- A count that is moved again and again is at its limit after as many moves as the distance to it
takes steps, and stays there. -/
theorem iterate_toward_eq_iff (policy : StepPolicy) (limit current : UInt32) (k : Nat) :
    (policy.toward limit)^[k] current = limit ↔
      policy.stepCount (distance limit current) ≤ k := by
  have hmoves : Function.Semiconj (distance limit) (policy.toward limit) policy.left :=
    policy.distance_toward limit
  rw [← distance_eq_zero_iff, (hmoves.iterate_right k).eq, iterate_left_eq_zero_iff]

/-! ## The pace of a policy -/

/-- How large the steps of a policy are, and how many of them it takes to get anywhere. -/
structure Paced (policy : StepPolicy) : Prop where
  /-- The size of a step is computed without a loss. -/
  exact : policy.Exact
  /-- A step over a longer distance is no shorter. -/
  mono : ∀ near far : UInt32, near ≤ far → policy.step near ≤ policy.step far
  /-- It is longer by no more than the distance is. -/
  grows : ∀ near far : UInt32, far.toNat = near.toNat + 1 →
    (policy.step far).toNat ≤ (policy.step near).toNat + 1
  /-- Nothing is left of a distance after that number of steps, and not before. -/
  reaches : ∀ (remaining : UInt32) (k : Nat),
    (fun r => r - policy.step r)^[k] remaining = 0 ↔ policy.stepCount remaining ≤ k
  /-- A count is at its limit after that number of moves, and not before. -/
  arrives : ∀ (limit current : UInt32) (k : Nat), (policy.toward limit)^[k] current = limit ↔
    policy.stepCount (distance limit current) ≤ k
  /-- No distance takes more steps than it is long. -/
  count_le : ∀ remaining : UInt32, policy.stepCount remaining ≤ remaining.toNat
  /-- A fixed size takes as many steps as it fits into the distance, rounded up. -/
  count_fixed : ∀ instances, policy = .fixed instances → ∀ remaining : UInt32,
    policy.stepCount remaining = remaining.toNat ⌈/⌉ instances.toNat
  /-- A policy of the same kind with a larger size takes no more steps. -/
  no_slower : ∀ larger : StepPolicy, larger.fault? = none → policy.AtMost larger →
    ∀ remaining, larger.stepCount remaining ≤ policy.stepCount remaining

/-- **The steps of a valid policy are exact, and larger steps are never slower.** -/
theorem paced_of_valid {policy : StepPolicy} (hvalid : policy.fault? = none) : policy.Paced where
  exact := exact_of_valid hvalid
  mono near far h :=
    UInt32.le_iff_toNat_le.mpr (size_mono hvalid (UInt32.le_iff_toNat_le.mp h))
  grows near far h := by
    have hle : near.toNat ≤ far.toNat := by omega
    have hgrowth := size_le_add hvalid hle
    rw [h, Nat.add_sub_cancel_left] at hgrowth
    exact hgrowth
  reaches := policy.iterate_left_eq_zero_iff
  arrives := policy.iterate_toward_eq_iff
  count_le := policy.stepCount_le
  count_fixed := by
    rintro instances rfl
    exact stepCount_fixed hvalid
  no_slower larger hlarger h remaining :=
    stepCount_le_stepCount hvalid (h.size_le_size hvalid hlarger) (Nat.le_refl _)

/-- Over the longest distance there is, steps of all but a hundredth come to the end after six of
them: the product of the first is far beyond 32 bits, and the last is of a single instance. -/
theorem paced_over_longest_distance :
    let policy : StepPolicy := .fraction 99
    policy.fault? = none ∧ policy.Paced ∧
      ((4294967295 : UInt32).toUInt64 * (99 : UInt32).toUInt64).toNat = 425201762205 ∧
      policy.stepCount 4294967295 = 6 ∧ stepCount (.fraction 100) 4294967295 ≤ 6 := by
  intro policy
  have hvalid : policy.fault? = none := by decide
  have hpaced := paced_of_valid hvalid
  have hcount : policy.stepCount 4294967295 = 6 := by
    have hend := (hpaced.reaches 4294967295 6).mp (by decide +kernel)
    have hbefore := mt (hpaced.reaches 4294967295 5).mpr (by decide +kernel)
    omega
  refine ⟨hvalid, hpaced, (hpaced.exact 4294967295).1, hcount, ?_⟩
  rw [← hcount]
  exact hpaced.no_slower _ (by decide) (.fraction (by decide)) _

end Rollout.StepPolicy
