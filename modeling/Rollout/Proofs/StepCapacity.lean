import Rollout.Proofs.Census
import Rollout.Proofs.TickCourse

/-!
# The capacity after a step

A scale step retires stable instances for the new ones that are healthy, and then moves the new
version. Retiring alone never brings the instances that serve below the number that is desired. Nor
does moving the new version, but for one case: a cap that lies below the count that is reached
already. The new version is then brought down toward the cap, and the stable instances that it has
replaced do not come back.
-/

namespace Rollout

/-- How many instances serve, as far as a record and a report of the new version's health tell. -/
def Deployment.capacity (d : Deployment) (health : Health) : Nat :=
  d.stableInstances.toNat + min health.healthy.toNat d.deployingInstances.toNat

/-- The bounds that a tick gives a scale step: the desired number without a cap, or the total of a
canary with its present target as the cap. -/
inductive Deployment.Bounds (d : Deployment) : ScaleGoal → Prop where
  | full : Bounds d d.fullGoal
  | canary {c : Canary} (htarget : c.currentInstanceTarget ≤ c.totalInstances)
    (htotal : c.totalInstances ≤ d.desiredWebInstances) : Bounds d c.goal

/-- The new version has been moved down toward a cap, and that is all the capacity given up. -/
structure Lowered (goal : ScaleGoal) (health : Health) (d d' : Deployment) : Prop where
  /-- There is a cap, and the new version does not go below it. -/
  capped : ∃ cap, goal.cap = some cap ∧ cap ≤ d'.deployingInstances
  /-- The new version has fewer instances than before. -/
  fewer : d'.deployingInstances < d.deployingInstances
  /-- It has fewer than are desired. -/
  short : d'.deployingInstances < d.desiredWebInstances
  /-- No more capacity is lost than these instances. -/
  loss : min d.desiredWebInstances.toNat (d.capacity health) ≤
    d'.capacity health + (d.deployingInstances.toNat - d'.deployingInstances.toNat)

variable {World : Type} {policy : StepPolicy} {goal : ScaleGoal} {d d' : Deployment}
  {trace : List (Exchange World)} {step : ScaleStep}

/-- A movement that does not fail falls no lower than its limit. -/
theorem Movement.rises_or_falls (h : Movement policy goal d trace (d', .ok step)) :
    d'.stableInstances = d.stableInstances ∧
      (d.deployingInstances.toNat ≤ d'.deployingInstances.toNat ∨
        goal.limit.toNat ≤ d'.deployingInstances.toNat ∧
          d'.deployingInstances.toNat < d.deployingInstances.toNat) := by
  cases h with
  | reached | held => exact ⟨rfl, Or.inl (Nat.le_refl _)⟩
  | moved _ hlimit =>
    refine ⟨rfl, ?_⟩
    rcases Nat.lt_or_gt_of_ne (toNat_ne.mp hlimit) with hbelow | habove
    · exact Or.inl (Nat.le_of_lt (policy.toward_of_lt hbelow).1)
    · exact Or.inr (policy.toward_of_gt habove)

/-- A scale step that succeeds leaves as much capacity as is desired or was there, but where a cap
has brought the new version down. -/
theorem ScaleCourse.capacity (hbounds : d.Bounds goal)
    (h : ScaleCourse policy goal d trace (d', .ok step)) :
    ∃ health w rest, trace = ⟨.query d.appId d.version, .ok health, w⟩ :: rest ∧
      (min d.desiredWebInstances.toNat (d.capacity health) ≤ d'.capacity health ∨
        Lowered goal health d d') := by
  cases h with
  | waiting _ health _ w => exact ⟨health, w, [], rfl, Or.inl (Nat.min_le_right _ _)⟩
  | stepped _ health hcovers w hretiring hmoving =>
    refine ⟨health, w, _, rfl, ?_⟩
    have hkept := d.toNat_stableGoal_of_covers hcovers
    have hhealthy : d.deployingInstances.toNat ≤ health.healthy.toNat := by
      simp only [Health.covers, Bool.and_eq_true, decide_eq_true_eq] at hcovers
      exact UInt32.le_iff_toNat_le.mp hcovers.2
    obtain ⟨hstable, hrises | ⟨hlimit, hfalls⟩⟩ := hmoving.rises_or_falls
    · have hrises : d.deployingInstances.toNat ≤ d'.deployingInstances.toNat := hrises
      left
      simp only [Deployment.capacity, hstable]
      omega
    · by_cases hshort : d'.deployingInstances.toNat < d.desiredWebInstances.toNat
      · right
        cases hbounds with
        | full =>
          -- Without a cap the limit is the desired number, and no move goes beyond its limit.
          have hdesired : d.desiredWebInstances.toNat ≤ d'.deployingInstances.toNat := hlimit
          omega
        | @canary c =>
          refine ⟨⟨c.currentInstanceTarget, rfl, UInt32.le_iff_toNat_le.mpr hlimit⟩,
            UInt32.lt_iff_toNat_lt.mpr hfalls, UInt32.lt_iff_toNat_lt.mpr hshort, ?_⟩
          simp only [Deployment.capacity, hstable]
          omega
      · left
        simp only [Deployment.capacity, hstable]
        omega

/-- **A step gives up capacity only by moving the new version down toward a cap.** Otherwise as many
instances serve after it as before, or as many as are desired. -/
theorem scaleStep_keeps_capacity (hbounds : d.Bounds goal)
    (h : (scaleStep policy goal d).Runs trace (d', .ok step)) :
    ∃ health w rest, trace = ⟨.query d.appId d.version, .ok health, w⟩ :: rest ∧
      (min d.desiredWebInstances.toNat (d.capacity health) ≤ d'.capacity health ∨
        Lowered goal health d d') :=
  (scaleCourse_of_runs h).capacity hbounds

/-- A step that retires two stable instances and starts a new one. -/
theorem scaleStep_keeps_capacity_retiring :
    let d : Deployment := { Deployment.begin .canaryOfOne 0 with
      canary := none
      deployingInstances := 1 }
    let d' : Deployment := { d with deployingInstances := 2, stableInstances := 1 }
    let plan := scaleStep (.fixed 1) d.fullGoal d
    let trace := plan.trace (.reporting ⟨1, 1⟩) ()
    d.Bounds d.fullGoal ∧ plan.Runs trace (d', .ok { changed := true }) ∧
      ∃ health w rest, trace = ⟨.query d.appId d.version, .ok health, w⟩ :: rest ∧
        (min d.desiredWebInstances.toNat (d.capacity health) ≤ d'.capacity health ∨
          Lowered d.fullGoal health d d') := by
  intro d d' plan trace
  have hresult : (plan.run (.reporting ⟨1, 1⟩) ()).1 = (d', .ok { changed := true }) := by
    decide +kernel
  have hruns : plan.Runs trace (d', .ok { changed := true }) :=
    hresult ▸ plan.runs_trace (.reporting ⟨1, 1⟩) ()
  exact ⟨.full, hruns, scaleStep_keeps_capacity .full hruns⟩

/-- A canary of one whose target is still zero, after two scale ticks: of three instances that
serve, as many as are desired, a step takes one. -/
theorem scaleStep_lowers_capacity :
    let c : Canary := ⟨1, 0⟩
    let d : Deployment := { Deployment.begin ⟨"shop-2", "shop", "2", "1", 1, 3, some 1⟩ 0 with
      deployingInstances := 2 }
    let d' : Deployment := { d with deployingInstances := 1 }
    let health : Health := ⟨2, 2⟩
    let plan := scaleStep (.fixed 1) c.goal d
    d.canary = some c ∧ d.Bounds c.goal ∧
      plan.Runs (plan.trace (.reporting health) ()) (d', .ok { changed := true }) ∧
      ¬min d.desiredWebInstances.toNat (d.capacity health) ≤ d'.capacity health := by
  intro c d d' health plan
  have hbounds : d.Bounds c.goal := .canary (by decide) (by decide)
  have hresult : (plan.run (.reporting health) ()).1 = (d', .ok { changed := true }) := by
    decide +kernel
  exact ⟨rfl, hbounds, hresult ▸ plan.runs_trace (.reporting health) (), by decide⟩

end Rollout
