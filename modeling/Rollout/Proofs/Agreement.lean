import Mathlib.Logic.Relation
import Rollout.Proofs.Convergence

/-!
# The record agrees with the scheduler

With a scheduler that keeps its contract and never fails, the two counts of the stored record are
the numbers of instances there are. This holds whatever ticks are made, in whatever order and
with whatever reports of health. In a terminal phase a rollout has come to its end in full, or
has been reverted in full.
-/

namespace Rollout

variable {Rest : Type} {scheduler : Scheduler (Store × Rest)} {census : Census Rest} {u : Updater}
  {d d' : Deployment} {command : Command} {w w' made : Store × Rest}
  {trace : List (Exchange (Store × Rest))}

/-! ## Ticks -/

/-- A scale step whose calls are all answered fails only before the first of them. -/
theorem ScaleCourse.unasked {World : Type} {policy : StepPolicy} {goal : ScaleGoal} {e : TickError}
    {trace : List (Exchange World)} (h : ScaleCourse policy goal d trace (d', .error e))
    (hanswered : ∀ x ∈ trace, ∃ answer, x.answer = .ok answer) : trace = [] := by
  cases h with
  | refused => rfl
  | unanswered | unretired => simp at hanswered
  | stepped _ _ _ _ hretiring hmoving =>
    cases hmoving with
    | failed =>
      obtain ⟨answer, hanswer⟩ := hanswered _ (List.mem_append_right _ List.mem_cons_self)
      cases hanswer

/-- A tick that fails although all its calls are answered has made none. -/
theorem TickCourse.unasked {World : Type} {e : TickError} {trace : List (Exchange World)}
    (h : TickCourse u d command trace (d', .error e))
    (hanswered : ∀ x ∈ trace, ∃ answer, x.answer = .ok answer) : trace = [] := by
  cases h with
  | scaleRefused | canaryRefused | canaryMissing | cancelRefused => rfl
  | scaleFailed _ hstep | canaryFailed _ _ hstep => exact hstep.unasked hanswered
  | unfinalized =>
    obtain ⟨answer, hanswer⟩ := hanswered _ (List.mem_append_right _ List.mem_cons_self)
    cases hanswer
  | unrestored | unremoved => simp at hanswered

/-- A reliable scheduler answers every call. -/
theorem Scheduler.Reliable.answered (h : scheduler.Reliable census)
    (hmakes : scheduler.Makes w trace made) : ∀ x ∈ trace, ∃ answer, x.answer = .ok answer :=
  hmakes.answered h.answers

/-- The two calls of a cancel leave what the record then counts. -/
theorem Counted.canceled {removed : UInt32} {w₁ : Store × Rest}
    (hfaithful : scheduler.Faithful census) (hversions : d.version ≠ d.previousVersion)
    (hrestores : scheduler (.setCount d.appId d.previousVersion d.originalInstances) w =
      (.ok (), w₁))
    (hremoves : scheduler (.remove d.appId d.version) w₁ = (.ok removed, w')) :
    Counted census ({ d with
      deployingInstances := 0
      stableInstances := d.originalInstances }.setPhase .canceled) w' := by
  constructor
  · have hremoved := hfaithful.done (.remove d.appId d.version) w₁ 0 removed rfl
      (congrArg Prod.fst hremoves)
    rwa [hremoves] at hremoved
  · have hkept := hfaithful.of_other hremoves (Deployment.fresh_ne_replaced hversions).symm
    exact hkept.trans (hfaithful.of_setCount hrestores)

/-- A tick that succeeds leaves what its copy then counts. -/
theorem TickCourse.counted (h : TickCourse u d command trace (d', .ok ()))
    (hfaithful : scheduler.Faithful census) (hversions : d.version ≠ d.previousVersion)
    (hmakes : scheduler.Makes w trace made) (hcounted : Counted census d w) :
    Counted census d' made := by
  have hstart : Counted census (d.setPhase .deploying) w := ⟨hcounted.fresh, hcounted.stable⟩
  cases h with
  | scaled _ hstep => exact hstep.counted hfaithful hversions hmakes hstart
  | finalized _ hstep hfinished =>
    obtain ⟨w₁, hscales, hremoves⟩ := hmakes.append_inv
    obtain ⟨heq, hnone⟩ := hremoves.cons_inv
    obtain rfl := hnone.nil_inv
    have hscaled := hstep.counted hfaithful hversions hscales hstart
    obtain rfl := hstep.eq_of_finished hfinished
    exact hscaled.finalized hfaithful hversions heq
  | canaryIdle | cancelIdle =>
    obtain rfl := hmakes.nil_inv
    exact hcounted
  | canaried _ _ hstep =>
    exact (hstep.counted hfaithful hversions hmakes hstart).afterCanaryStep ..
  | canceled =>
    obtain ⟨hrestores, hmakes⟩ := hmakes.cons_inv
    obtain ⟨hremoves, hmakes⟩ := hmakes.cons_inv
    obtain rfl := hmakes.nil_inv
    exact .canceled hfaithful hversions hrestores hremoves

/-! ## Terminal records -/

/-- A record in a terminal phase counts what its phase promises. -/
structure Deployment.Ended (d : Deployment) : Prop where
  /-- A finished rollout counts all new instances and no stable ones. -/
  deployed : d.phase = .deployed →
    d.deployingInstances = d.desiredWebInstances ∧ d.stableInstances = 0
  /-- A canceled one counts no new instances and all that it was to replace. -/
  canceled : d.phase = .canceled →
    d.deployingInstances = 0 ∧ d.stableInstances = d.originalInstances

private theorem Deployment.ended_of_active (h : d.phase.isTerminal = false) : d.Ended := by
  constructor
  · intro hphase
    simp [hphase, Phase.isTerminal] at h
  · intro hphase
    simp [hphase, Phase.isTerminal] at h

private theorem Deployment.Ended.of_alike (h : d.Ended) (halike : Alike d d')
    (hphase : d'.phase = d.phase) : d'.Ended := by
  constructor
  · intro hdeployed
    rw [halike.deploying, halike.stable, halike.desired]
    exact h.deployed (hphase.symm.trans hdeployed)
  · intro hcanceled
    rw [halike.deploying, halike.stable, halike.original]
    exact h.canceled (hphase.symm.trans hcanceled)

/-- After its step a canary tick pauses the rollout or leaves its phase. -/
theorem Updater.phase_afterCanaryStep (u : Updater) (c : Canary) (step : ScaleStep)
    (d : Deployment) :
    (u.afterCanaryStep c step d).phase = .paused ∨
      (u.afterCanaryStep c step d).phase = d.phase := by
  unfold afterCanaryStep
  split
  · exact Or.inl rfl
  · split
    · exact Or.inr rfl
    · exact Or.inr rfl

/-- A scale step leaves the phase of its copy. -/
theorem ScaleCourse.phase_eq {World : Type} {policy : StepPolicy} {goal : ScaleGoal}
    {trace : List (Exchange World)} {outcome : Outcome ScaleStep}
    (h : ScaleCourse policy goal d trace outcome) : outcome.1.phase = d.phase := by
  obtain ⟨deploying, stable, heq⟩ := h.exists_eq
  rw [heq]

/-- A tick that succeeds ends a rollout only with the counts of its end. -/
theorem TickCourse.ended {World : Type} {trace : List (Exchange World)}
    (h : TickCourse u d command trace (d', .ok ())) (hended : d.Ended) : d'.Ended := by
  cases h with
  | scaled _ hstep =>
    apply Deployment.ended_of_active
    rw [hstep.phase_eq]
    rfl
  | finalized _ hstep hfinished =>
    obtain rfl := hstep.eq_of_finished hfinished
    exact ⟨fun _ => ⟨rfl, rfl⟩, (nomatch ·)⟩
  | canaryIdle | cancelIdle => exact hended
  | @canaried _ c _ _ d₁ step hstep =>
    apply Deployment.ended_of_active
    rcases u.phase_afterCanaryStep c step d₁ with hphase | hphase
    · rw [hphase]
      rfl
    · rw [hphase, hstep.phase_eq]
      rfl
  | canceled => exact ⟨(nomatch ·), fun _ => ⟨rfl, rfl⟩⟩

/-! ## One turn -/

/-- The stored record counts the instances there are. -/
structure Agreed (census : Census Rest) (id : String) (d : Deployment) (w : Store × Rest) :
    Prop where
  /-- The record is in the store. -/
  held : w.1.Holds id d
  /-- A version is not replaced by itself. -/
  versions : d.version ≠ d.previousVersion
  /-- The record counts the instances of both versions. -/
  counted : Counted census d w
  /-- In a terminal phase it counts what that phase promises. -/
  ended : d.Ended

/-- What may happen next to a deployment: a tick with any command, an operator request, or
something that leaves the record and the numbers of instances alone, as a change of health
does. -/
inductive Turn (scheduler : Scheduler (Store × Rest)) (census : Census Rest) (id : String) :
    Store × Rest → Store × Rest → Prop where
  | tick (u : Updater) (command : Command) (w : Store × Rest) :
    Turn scheduler census id w (u.tick scheduler id command w).2
  | cancelRequest (w : Store × Rest) :
    Turn scheduler census id w ((Operator.requestCancel w.1 id).2, w.2)
  | promotion (w : Store × Rest) :
    Turn scheduler census id w ((Operator.promote w.1 id).2, w.2)
  | health {w w' : Store × Rest} (hbeside : Beside id w w')
    (hsame : ∀ subject, census.of w' subject = census.of w subject) :
    Turn scheduler census id w w'

/-- As long as the instances are the same a record goes on counting them. -/
theorem Counted.of_census (h : Counted census d w)
    (hsame : ∀ subject, census.of w' subject = census.of w subject) : Counted census d w' :=
  ⟨(hsame _).trans h.fresh, (hsame _).trans h.stable⟩

/-- A tick settles a record that counts what the calls of the tick have left. -/
theorem TickCourse.settled_counted {outcome : Outcome Unit}
    (h : TickCourse u d command trace outcome) (hreliable : scheduler.Reliable census)
    (hversions : d.version ≠ d.previousVersion) (hmakes : scheduler.Makes w trace made)
    (hcounted : Counted census d w) (hended : d.Ended) :
    Counted census (u.settled command d d outcome) made ∧
      (u.settled command d d outcome).Ended := by
  obtain ⟨d₁, result⟩ := outcome
  cases result with
  | error e =>
    rw [h.unasked (hreliable.answered hmakes)] at hmakes
    obtain rfl := hmakes.nil_inv
    obtain ⟨halike, hphase⟩ := u.alike_settled_error command d d₁ e
    refine ⟨hcounted.of_alike halike, ?_⟩
    rcases hphase with hphase | ⟨-, hphase⟩
    · exact hended.of_alike halike hphase
    · apply Deployment.ended_of_active
      rw [hphase]
      cases command <;> rfl
  | ok _ =>
    have halike : Alike d₁ (u.settled command d d (d₁, .ok ())) :=
      Updater.alike_settled_ok (.refl d₁)
    have hend := h.counted hreliable.toFaithful hversions hmakes hcounted
    exact ⟨hend.of_alike halike, (h.ended hended).of_alike halike (u.phase_settled_ok ..)⟩

namespace Agreed

variable {id : String}

/-- A tick keeps record and instances in agreement, whatever its command and its outcome. -/
theorem tick (h : Agreed census id d w) (hreliable : scheduler.Reliable census) (u : Updater)
    (command : Command) :
    ∃ d', Agreed census id d' (u.tick scheduler id command w).2 ∧ d'.terms = d.terms := by
  obtain ⟨outcome, made, hcourse, hmakes, hheld, hinstances, hrest⟩ :=
    u.tick_spec (hreliable.spares_id id) command h.held
  have hterms := Updater.terms_settled hcourse rfl
  obtain ⟨hcounted, hended⟩ :=
    hcourse.settled_counted hreliable h.versions hmakes h.counted h.ended
  have hsame := census.of_eq hinstances hrest
  exact ⟨_, ⟨hheld, Deployment.versions_of_terms hterms h.versions, hcounted.of_census hsame,
    hended⟩, hterms⟩

/-- A record that is written with the same counts still agrees. -/
theorem write (h : Agreed census id d w) (hterms : d'.terms = d.terms)
    (hcounted : Counted census d' w) (hended : d'.Ended) :
    Agreed census id d' (w.1.write d', w.2) where
  held := w.1.holds_write_of_id ((congrArg Terms.id hterms).trans h.held.own)
  versions := Deployment.versions_of_terms hterms h.versions
  counted := hcounted.of_census (census.of_eq rfl rfl)
  ended := hended

/-- A cancel request keeps them in agreement. -/
theorem cancelRequest (h : Agreed census id d w) :
    Agreed census id (Operator.canceled d) ((Operator.requestCancel w.1 id).2, w.2) := by
  rw [Operator.requestCancel_eq_write h.held]
  refine h.write (Operator.terms_canceled d) ?_ ?_
  · unfold Operator.canceled Deployment.requestCancel?
    split <;> exact ⟨h.counted.fresh, h.counted.stable⟩
  · unfold Operator.canceled Deployment.requestCancel?
    split
    · exact ⟨h.ended.deployed, h.ended.canceled⟩
    · exact Deployment.ended_of_active rfl

/-- A promotion keeps them in agreement. -/
theorem promotion (h : Agreed census id d w) :
    Agreed census id (Operator.promoted d) ((Operator.promote w.1 id).2, w.2) := by
  rw [Operator.promote_eq_write h.held]
  refine h.write (Operator.terms_promoted d) ?_ ?_
  · unfold Operator.promoted Deployment.promote?
    split <;> exact ⟨h.counted.fresh, h.counted.stable⟩
  · unfold Operator.promoted Deployment.promote?
    split
    · exact Deployment.ended_of_active rfl
    · exact ⟨h.ended.deployed, h.ended.canceled⟩

/-- Whatever happens next keeps record and instances in agreement. -/
theorem turn (h : Agreed census id d w) (hreliable : scheduler.Reliable census)
    (hturn : Turn scheduler census id w w') :
    ∃ d', Agreed census id d' w' ∧ d'.terms = d.terms := by
  cases hturn with
  | tick u command => exact h.tick hreliable u command
  | cancelRequest => exact ⟨_, h.cancelRequest, Operator.terms_canceled d⟩
  | promotion => exact ⟨_, h.promotion, Operator.terms_promoted d⟩
  | health hbeside hsame =>
    exact ⟨d, ⟨h.held.of_get?_eq hbeside, h.versions, h.counted.of_census hsame, h.ended⟩, rfl⟩

/-- Whatever happens one after another keeps record and instances in agreement. -/
theorem turns (h : Agreed census id d w) (hreliable : scheduler.Reliable census)
    (hturns : Relation.ReflTransGen (Turn scheduler census id) w w') :
    ∃ d', Agreed census id d' w' ∧ d'.terms = d.terms := by
  induction hturns with
  | refl => exact ⟨d, h, rfl⟩
  | tail _ hturn ih =>
    obtain ⟨d₁, h₁, hterms₁⟩ := ih
    obtain ⟨d₂, h₂, hterms₂⟩ := h₁.turn hreliable hturn
    exact ⟨d₂, h₂, hterms₂.trans hterms₁⟩

end Agreed

/-! ## Any sequence of turns -/

/-- The record of a request and the numbers of instances agree. -/
structure Agreement (census : Census Rest) (request : Request) (d : Deployment)
    (w : Store × Rest) : Prop where
  /-- The record of the request is in the store. -/
  record : w.1.deployment request.id = .ok d
  /-- It counts the instances of the version being replaced. -/
  stable : census.of w (request.appId, request.previousVersion) = d.stableInstances.toNat
  /-- It counts those of the new version. -/
  fresh : census.of w (request.appId, request.version) = d.deployingInstances.toNat
  /-- Once it is finished there are as many new instances as were desired, and no others. -/
  deployed : d.phase = .deployed →
    census.of w (request.appId, request.version) = request.desiredWebInstances.toNat ∧
      census.of w (request.appId, request.previousVersion) = 0
  /-- Once it is canceled all instances are back that it was to replace, and no others are left. -/
  canceled : d.phase = .canceled →
    census.of w (request.appId, request.version) = 0 ∧
      census.of w (request.appId, request.previousVersion) = request.originalInstances.toNat

private theorem Agreed.agreement {request : Request} {now : UInt64}
    (h : Agreed census request.id d w) (hterms : d.terms = (Deployment.begin request now).terms) :
    Agreement census request d w := by
  have hdesired : d.desiredWebInstances = request.desiredWebInstances :=
    congrArg Terms.desiredWebInstances hterms
  have horiginal : d.originalInstances = request.originalInstances :=
    congrArg Terms.originalInstances hterms
  have hstable := h.counted.stable
  have hfresh := h.counted.fresh
  rw [Deployment.replaced_of_terms hterms] at hstable
  rw [Deployment.fresh_of_terms hterms] at hfresh
  refine ⟨h.held.deployment, hstable, hfresh, fun hphase => ?_, fun hphase => ?_⟩
  · obtain ⟨hdeploying, hzero⟩ := h.ended.deployed hphase
    rw [hdeploying, hdesired] at hfresh
    rw [hzero] at hstable
    exact ⟨hfresh, hstable⟩
  · obtain ⟨hzero, hkept⟩ := h.ended.canceled hphase
    rw [hzero] at hfresh
    rw [hkept, horiginal] at hstable
    exact ⟨hfresh, hstable⟩

/-- After any ticks with any commands, any operator requests and any changes of health, there are
as many instances as the record says. A deployed rollout has all desired instances of the new
version and none of the one it replaces, and a canceled one has as many as there were before. -/
theorem counts_agree {request : Request} {now : UInt64} {d₀ : Deployment} {store created : Store}
    {rest : Rest} (hnew : Deployment.new request now = .ok d₀)
    (hcreate : store.create d₀ = .ok created) (hreliable : scheduler.Reliable census)
    (hold : census.of (created, rest) (request.appId, request.previousVersion) =
      request.originalInstances.toNat)
    (hnone : census.of (created, rest) (request.appId, request.version) = 0)
    (hturns : Relation.ReflTransGen (Turn scheduler census request.id) (created, rest) w) :
    ∃ d, Agreement census request d w := by
  obtain ⟨rfl, hsound⟩ := Deployment.new_eq_ok hnew
  have hstart : Agreed census request.id (Deployment.begin request now) (created, rest) :=
    ⟨Store.holds_create hcreate, hsound.versions, ⟨hnone, hold⟩, Deployment.ended_of_active rfl⟩
  obtain ⟨d, hd, hterms⟩ := hstart.turns hreliable hturns
  exact ⟨d, hd.agreement hterms⟩

/-- A scale tick of a rollout with a canary, a canary tick that steps down again, and a cancel. -/
theorem counts_agree_after_cancel :
    let created := Store.empty.write (Deployment.begin .canaryOfOne 0)
    let tick (command : Command) (w : Store × (String × String → UInt32)) :=
      (Updater.tick ⟨.fixed 5, 1⟩ Scheduler.counting Request.canaryOfOne.id command w).2
    let stepped := tick .canary (tick .scale (created, Request.canaryOfOne.counts))
    let asked := (Operator.requestCancel stepped.1 Request.canaryOfOne.id).2
    ∃ d, Agreement Scheduler.numbers .canaryOfOne d (tick .cancel (asked, stepped.2)) := by
  intro created tick stepped asked
  have hnew : Deployment.new .canaryOfOne 0 = .ok (Deployment.begin .canaryOfOne 0) := rfl
  have hcreate : Store.empty.create (Deployment.begin .canaryOfOne 0) = .ok created := rfl
  have hticks : Relation.ReflTransGen
      (Turn Scheduler.counting Scheduler.numbers Request.canaryOfOne.id)
      (created, Request.canaryOfOne.counts) stepped :=
    (Relation.ReflTransGen.refl.tail (.tick _ .scale _)).tail (.tick _ .canary _)
  have hturns := (hticks.tail (.cancelRequest stepped)).tail (.tick ⟨.fixed 5, 1⟩ .cancel _)
  exact counts_agree hnew hcreate Scheduler.exact_counting.reliable
    (Request.counts_previousVersion _ _) (Request.counts_version (by decide) _) hturns

end Rollout
