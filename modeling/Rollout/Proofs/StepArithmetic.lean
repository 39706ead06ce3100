import Rollout.Proofs.GuardedCalls

/-!
# Step arithmetic

The counts of a deployment are machine words, and a sum or a difference beyond their range would be
taken for some other count. The steps of a tick are written down here once more, with sums and
differences that give nothing in that case. Whatever the record says, whatever the policy is and
however the calls are answered, these steps come to the same as the ones that are taken.
-/

namespace Rollout

/-! ## Sums and differences -/

/-- The sum of two counts, if that is a count. -/
def sum? (a b : UInt32) : Option UInt32 :=
  if a.toNat + b.toNat < UInt32.size then some (a + b) else none

/-- The difference of two counts, if that is a count. -/
def difference? (a b : UInt32) : Option UInt32 :=
  if b ≤ a then some (a - b) else none

/-- A sum is a count exactly if it is the sum of the numbers. -/
theorem sum?_eq_some_iff {a b c : UInt32} :
    sum? a b = some c ↔ c.toNat = a.toNat + b.toNat := by
  have hc := c.toNat_lt_size
  unfold sum?
  split
  · next h => rw [Option.some.injEq, ← UInt32.toNat_inj, toNat_add h, eq_comm]
  · next h =>
    simp only [reduceCtorEq, false_iff]
    omega

/-- A difference is a count exactly if it is the difference of the numbers. -/
theorem difference?_eq_some_iff {a b c : UInt32} :
    difference? a b = some c ↔ c.toNat + b.toNat = a.toNat := by
  unfold difference?
  split
  · next h =>
    have hle := UInt32.le_iff_toNat_le.mp h
    rw [Option.some.injEq, ← UInt32.toNat_inj, toNat_sub hle]
    omega
  · next h =>
    have hlt := UInt32.lt_iff_toNat_lt.mp (UInt32.not_le.mp h)
    simp only [reduceCtorEq, false_iff]
    omega

/-- A sum within counts is that of the machine words. -/
theorem sum?_eq_some {a b : UInt32} (h : a.toNat + b.toNat < UInt32.size) :
    sum? a b = some (a + b) :=
  sum?_eq_some_iff.mpr (toNat_add h)

/-- A difference within counts is that of the machine words. -/
theorem difference?_eq_some {a b : UInt32} (h : b.toNat ≤ a.toNat) :
    difference? a b = some (a - b) :=
  difference?_eq_some_iff.mpr (by rw [toNat_sub h]; omega)

/-- The count one step closer to the limit, if the way there stays within counts. -/
def StepPolicy.toward? (policy : StepPolicy) (limit current : UInt32) : Option UInt32 := do
  if current < limit then sum? current (policy.step (← difference? limit current))
  else difference? current (policy.step (← difference? current limit))

/-- The next target of a canary, if the way there stays within counts. -/
def Canary.nextTarget? (policy : StepPolicy) (c : Canary) : Option UInt32 := do
  let remaining ← difference? c.totalInstances c.currentInstanceTarget
  return min (← sum? c.currentInstanceTarget (policy.step remaining)) c.totalInstances

/-- No step toward a limit loses a count. -/
theorem StepPolicy.toward?_eq_some (policy : StepPolicy) (limit current : UInt32) :
    policy.toward? limit current = some (policy.toward limit current) := by
  have hlimit := limit.toNat_lt_size
  unfold toward? toward
  split
  · next h =>
    have hlt := UInt32.lt_iff_toNat_lt.mp h
    have hdistance := toNat_sub (Nat.le_of_lt hlt)
    have hsize : (policy.step (limit - current)).toNat ≤ _ := policy.size_le (limit - current)
    rw [difference?_eq_some (Nat.le_of_lt hlt)]
    exact sum?_eq_some (by omega)
  · next h =>
    have hle := UInt32.le_iff_toNat_le.mp (UInt32.not_lt.mp h)
    have hdistance := toNat_sub hle
    have hsize : (policy.step (current - limit)).toNat ≤ _ := policy.size_le (current - limit)
    rw [difference?_eq_some hle]
    exact difference?_eq_some (by omega)

/-- The next target of a canary is a count if the present one is within the total. -/
theorem Canary.nextTarget?_eq_some (policy : StepPolicy) {c : Canary}
    (h : c.currentInstanceTarget.toNat ≤ c.totalInstances.toNat) :
    c.nextTarget? policy = some (c.nextTarget policy) := by
  have htotal := c.totalInstances.toNat_lt_size
  have hdistance := toNat_sub h
  have hsize : (policy.step (c.totalInstances - c.currentInstanceTarget)).toNat ≤ _ :=
    policy.size_le (c.totalInstances - c.currentInstanceTarget)
  have hsum := sum?_eq_some (a := c.currentInstanceTarget)
    (b := policy.step (c.totalInstances - c.currentInstanceTarget)) (by omega)
  simp [nextTarget?, difference?_eq_some h, hsum, nextTarget]

/-! ## Steps without lost counts -/

/-- The stable instances to keep, if their number is a count. -/
def Deployment.stableGoal? (d : Deployment) (health : Health) : Option UInt32 := do
  let replaced := min health.healthy d.deployingInstances
  let missing ←
    if replaced ≤ d.desiredWebInstances then difference? d.desiredWebInstances replaced else some 0
  return min missing d.stableInstances

/-- The part of a scale step that moves the new version. It has no result if a count is lost. -/
def scaleNew? (policy : StepPolicy) (goal : ScaleGoal) (retired : Bool) :
    Action (Option ScaleStep) := fun d =>
  if d.deployingInstances = goal.target then
    Action.finish d
      (some { finished := goal.cap.isSome || d.stableInstances == 0, changed := retired })
  else if d.deployingInstances = goal.limit then
    Action.finish d (some { atCap := true, changed := retired })
  else
    match policy.toward? goal.limit d.deployingInstances with
    | none => Action.finish d none
    | some next =>
      Action.ask d (.setCount d.appId d.version next) fun _ =>
        Action.finish { d with deployingInstances := next } (some { changed := true })

/-- One scale step, without a result if a count is lost. -/
def scaleStep? (policy : StepPolicy) (goal : ScaleGoal) : Action (Option ScaleStep) := fun d =>
  match goal.violation? with
  | some v => Action.fail d (.violation v)
  | none =>
    Action.ask d (.query d.appId d.version) fun (health : Health) =>
      if health.covers d.deployingInstances then
        match d.stableGoal? health with
        | none => Action.finish d none
        | some stable =>
          if stable < d.stableInstances then
            Action.ask d (.setCount d.appId d.previousVersion stable) fun _ =>
              scaleNew? policy goal true { d with stableInstances := stable }
          else scaleNew? policy goal false d
      else Action.finish d (some {})

namespace Updater

/-- What a canary tick does after its scale step, if no count is lost by that. -/
def afterCanaryStep? (u : Updater) (canary : Canary) (step : ScaleStep) (d : Deployment) :
    Option Deployment :=
  if step.finished then some ({ d with lastHealthyAt := some u.now }.setPhase .paused)
  else if step.atCap then
    (canary.nextTarget? u.policy).map fun next =>
      { d with canary := d.canary.map fun c => { c with currentInstanceTarget := next } }
  else some d

/-- A canary tick, without a result if a count is lost. -/
def canary? (u : Updater) : Action (Option Unit) := fun d =>
  if d.phase = .paused then Action.finish d (some ())
  else if d.phase.isInProgress then
    match d.canary with
    | none => Action.fail d (.violation .noCanary)
    | some canary =>
      Action.andThen (scaleStep? u.policy canary.goal (d.setPhase .deploying)) fun d step =>
        match step.bind fun step => u.afterCanaryStep? canary step d with
        | none => Action.finish d none
        | some d => Action.finish d (some ())
  else Action.fail d (.violation (.wrongPhase "canary" d.phase))

end Updater

/-! ## No count is lost -/

namespace Plan

variable {α β : Type}

/-- A plan that always has its result, as one that might have none. -/
def always (plan : Plan (Outcome α)) : Plan (Outcome (Option α)) :=
  plan.bind fun outcome => .done (outcome.1, outcome.2.map some)

/-- What follows on a plan matters only for results that it can have. -/
theorem bind_congr {plan : Plan α} {f g : α → Plan β}
    (h : ∀ (trace : List (Exchange Unit)) a, plan.Runs trace a → f a = g a) :
    plan.bind f = plan.bind g := by
  induction plan with
  | done a => exact h [] a (.done a)
  | call c next ih =>
    have hnext (answer : Except SchedulerError c.Answer) :
        (next answer).bind f = (next answer).bind g :=
      ih answer fun trace a hrun => h (⟨c, answer, ()⟩ :: trace) a (.call hrun)
    simp only [bind, hnext]

private theorem bind_bind {γ : Type} (plan : Plan α) (f : α → Plan β) (g : β → Plan γ) :
    (plan.bind f).bind g = plan.bind fun a => (f a).bind g := by
  induction plan with
  | done a => rfl
  | call c next ih => simp only [bind, ih]

end Plan

variable {α : Type} {d : Deployment}

private theorem Action.always_ask {c : Call} {next : c.Answer → Plan (Outcome α)} :
    (Action.ask d c next).always = Action.ask d c fun answer => (next answer).always := by
  show Plan.call c _ = Plan.call c _
  congr 1
  funext answer
  cases answer <;> rfl

/-- Two plans one after another always have a result if the second has one wherever the first can
lead. -/
theorem Action.always_andThen {β : Type} {plan : Plan (Outcome α)}
    {next : Deployment → α → Plan (Outcome β)}
    {next? : Deployment → Option α → Plan (Outcome (Option β))}
    (h : ∀ (trace : List (Exchange Unit)) d a, plan.Runs trace (d, .ok a) →
      next? d (some a) = (next d a).always) :
    Action.andThen plan.always next? = (Action.andThen plan next).always := by
  unfold Action.andThen Plan.always
  rw [Plan.bind_bind, Plan.bind_bind]
  refine Plan.bind_congr fun trace outcome hrun => ?_
  obtain ⟨d, result⟩ := outcome
  cases result with
  | error e => rfl
  | ok a => exact h trace d a hrun

/-- The number of stable instances to keep is always a count. -/
theorem Deployment.stableGoal?_eq_some (d : Deployment) (health : Health) :
    d.stableGoal? health = some (d.stableGoal health) := by
  unfold stableGoal? stableGoal
  dsimp only
  split
  · next h => rw [difference?_eq_some (UInt32.le_iff_toNat_le.mp h)]; rfl
  · rfl

/-- Moving the new version loses no count. -/
theorem scaleNew?_eq (policy : StepPolicy) (goal : ScaleGoal) (retired : Bool) (d : Deployment) :
    scaleNew? policy goal retired d = (scaleNew policy goal retired d).always := by
  unfold scaleNew? scaleNew
  split
  · rfl
  · split
    · rfl
    · rw [policy.toward?_eq_some, Action.always_ask]
      rfl

/-- No count is lost in a scale step, with any cap and any target. -/
theorem scaleStep?_eq (policy : StepPolicy) (goal : ScaleGoal) (d : Deployment) :
    scaleStep? policy goal d = (scaleStep policy goal d).always := by
  unfold scaleStep? scaleStep
  cases goal.violation? with
  | some v => rfl
  | none =>
    dsimp only
    rw [Action.always_ask]
    congr 1
    funext health
    rw [d.stableGoal?_eq_some]
    dsimp only
    split
    · split
      · rw [Action.always_ask]
        congr 1
        funext _
        exact scaleNew?_eq ..
      · exact scaleNew?_eq ..
    · rfl

/-- A canary that a step has found at its cap has been permitted less than its total. -/
theorem ScaleCourse.lt_of_atCap {policy : StepPolicy} {c : Canary} {d d' : Deployment}
    {World : Type} {trace : List (Exchange World)} {step : ScaleStep}
    (h : ScaleCourse policy c.goal d trace (d', .ok step)) (hatCap : step.atCap = true) :
    c.currentInstanceTarget.toNat < c.totalInstances.toNat := by
  cases h with
  | waiting => cases hatCap
  | stepped hgoal _ _ _ _ hmoving =>
    cases hmoving with
    | reached _ _ hstep | moved _ _ _ hstep => simp [hatCap] at hstep
    | held htarget hlimit =>
      have hlimit : d.deployingInstances = c.currentInstanceTarget := hlimit
      have htarget : d.deployingInstances ≠ c.totalInstances := htarget
      have hle : ¬c.totalInstances < c.currentInstanceTarget := by
        intro hlt
        simp [ScaleGoal.violation?, Canary.goal, hlt] at hgoal
      rw [hlimit, toNat_ne] at htarget
      rw [UInt32.lt_iff_toNat_lt] at hle
      omega

/-- What a canary tick does after its step loses no count if the target is within the total at the
cap. -/
theorem Updater.afterCanaryStep?_eq_some (u : Updater) {c : Canary} {step : ScaleStep}
    (h : step.atCap = true → c.currentInstanceTarget.toNat ≤ c.totalInstances.toNat)
    (d : Deployment) : u.afterCanaryStep? c step d = some (u.afterCanaryStep c step d) := by
  unfold afterCanaryStep? afterCanaryStep
  split
  · rfl
  · split
    · next hatCap =>
      rw [Canary.nextTarget?_eq_some u.policy (h hatCap)]
      rfl
    · rfl

/-- No count is lost in a canary tick. -/
theorem Updater.canary?_eq (u : Updater) (d : Deployment) :
    u.canary? d = (u.canary d).always := by
  unfold canary? canary
  split
  · rfl
  · split
    · cases d.canary with
      | none => rfl
      | some c =>
        dsimp only
        rw [scaleStep?_eq]
        refine Action.always_andThen fun trace d' step hrun => ?_
        rw [Option.bind_some, u.afterCanaryStep?_eq_some fun hatCap =>
          Nat.le_of_lt ((scaleCourse_of_runs hrun).lt_of_atCap hatCap)]
        rfl
    · rfl

/-- A canary tick leaves the canary as it is, or permits it more instances, up to its total. -/
theorem TickCourse.canary_advances {u : Updater} {World : Type} {trace : List (Exchange World)}
    {outcome : Outcome Unit} (h : TickCourse u d .canary trace outcome) :
    outcome.1.canary = d.canary ∨ ∃ c next, d.canary = some c ∧
      outcome.1.canary = some { c with currentInstanceTarget := next } ∧
      c.currentInstanceTarget < next ∧ next ≤ c.totalInstances := by
  cases h with
  | canaryIdle | canaryRefused | canaryMissing => exact Or.inl rfl
  | canaryFailed _ _ hstep =>
    obtain ⟨_, _, heq⟩ := hstep.exists_eq
    obtain rfl := heq
    exact Or.inl rfl
  | @canaried _ c hcanary _ d' step hstep =>
    obtain ⟨_, _, heq⟩ := hstep.exists_eq
    obtain rfl := heq
    unfold Updater.afterCanaryStep
    split
    · exact Or.inl rfl
    · split
      · next hatCap =>
        have hlt := hstep.lt_of_atCap hatCap
        have hnext := c.toNat_nextTarget u.policy (Nat.le_of_lt hlt)
        have hdistance : 0 < (c.totalInstances - c.currentInstanceTarget).toNat := by
          rw [toNat_sub (Nat.le_of_lt hlt)]
          omega
        have hpos := u.policy.size_pos hdistance
        refine Or.inr ⟨c, c.nextTarget u.policy, hcanary, ?_, ?_, ?_⟩
        · show d.canary.map _ = _
          rw [hcanary]
          rfl
        · rw [UInt32.lt_iff_toNat_lt]
          omega
        · exact UInt32.le_iff_toNat_le.mpr (c.nextTarget_le u.policy)
      · exact Or.inl rfl

/-- **The arithmetic of a step is safe for every record.** -/
theorem Updater.step_arithmetic_safe (u : Updater) (d : Deployment) :
    (∀ goal, scaleStep? u.policy goal d = (scaleStep u.policy goal d).always) ∧
    u.canary? d = (u.canary d).always ∧
    (∀ goal (World : Type) (trace : List (Exchange World)) outcome,
      (scaleStep u.policy goal d).Runs trace outcome →
        ∃ retired moved : Option UInt32,
          counts trace = (retired.map (.setCount d.appId d.previousVersion)).toList ++
            (moved.map (.setCount d.appId d.version)).toList ∧
          (∀ n ∈ retired, n < d.stableInstances) ∧
          ∀ n ∈ moved, Nearer d.deployingInstances goal.limit n) ∧
    ∀ (World : Type) (trace : List (Exchange World)) outcome, (u.canary d).Runs trace outcome →
      outcome.1.canary = d.canary ∨ ∃ c next, d.canary = some c ∧
        outcome.1.canary = some { c with currentInstanceTarget := next } ∧
        c.currentInstanceTarget < next ∧ next ≤ c.totalInstances :=
  ⟨fun goal => scaleStep?_eq u.policy goal d, u.canary?_eq d,
    fun _ _ _ _ hruns => (scaleCourse_of_runs hruns).setCounts,
    fun _ _ _ hruns => (tickCourse_of_runs_canary hruns).canary_advances⟩

/-- At the edge of the range and under a policy that is refused elsewhere, a canary tick retires all
stable instances but one, and permits the canary one more instance than it has. -/
theorem Updater.step_arithmetic_safe_edge :
    let d : Deployment := { Deployment.begin .canaryOfOne 0 with
      desiredWebInstances := 4294967295
      canary := some ⟨4294967295, 4294967294⟩
      deployingInstances := 4294967294
      stableInstances := 4294967295 }
    let u : Updater := ⟨.fraction 4294967295, 0⟩
    let scheduler : Scheduler Unit := .reporting ⟨4294967295, 4294967295⟩
    let outcome := ((u.canary d).run scheduler ()).1
    ((u.canary d).trace scheduler ()).map Exchange.call =
        [.query "shop" "2", .setCount "shop" "1" 1] ∧
      u.canary? d = (u.canary d).always ∧
      ∃ c next, d.canary = some c ∧
        outcome.1.canary = some { c with currentInstanceTarget := next } ∧
        c.currentInstanceTarget < next ∧ next ≤ c.totalInstances := by
  intro d u scheduler outcome
  have hruns : (u.canary d).Runs ((u.canary d).trace scheduler ()) outcome :=
    Plan.runs_trace scheduler (u.canary d) ()
  have hchanged : outcome.1.canary ≠ d.canary := by decide +kernel
  obtain ⟨-, hcanary, -, hadvances⟩ := u.step_arithmetic_safe d
  refine ⟨by decide +kernel, hcanary, (hadvances _ _ outcome hruns).resolve_left hchanged⟩

end Rollout
