import Rollout.Proofs.Agreement
import Rollout.Proofs.PhaseAutomaton
import Rollout.Proofs.Script
import Rollout.Proofs.TickOutcome

/-!
# A cancel among other ticks

Once the scheduler can be reached again, a cancel reverts a rollout in full from wherever its
failures have left it, and the ticks around it do not matter. Only a scale tick that comes before
every cancel and finishes the rollout wins over it. After either end no tick makes a call.
-/

namespace Rollout

variable {Rest : Type} {scheduler : Scheduler (Store × Rest)} {census : Census Rest}
  {u : Updater} {d d' : Deployment} {command : Command} {id : String} {w w' made : Store × Rest}

/-! ## Ticks one after another -/

/-- The world after ticks for one deployment. -/
def Scheduler.afterTicks (scheduler : Scheduler (Store × Rest)) (id : String)
    (ticks : List (Updater × Command)) (w : Store × Rest) : Store × Rest :=
  ticks.foldl (fun w t => (t.1.tick scheduler id t.2 w).2) w

/-- A tick leaves a record with the same terms, whatever becomes of its calls. -/
theorem Updater.holds_tick (u : Updater) (command : Command) (hspares : scheduler.Spares id)
    (hd : w.1.Holds id d) :
    ∃ d', (u.tick scheduler id command w).2.1.Holds id d' ∧ d'.terms = d.terms := by
  obtain ⟨outcome, made, hcourse, -, hheld, -⟩ := u.tick_spec hspares command hd
  exact ⟨_, hheld, Updater.terms_settled hcourse rfl⟩

/-! ## Ticks of an ended rollout -/

/-- A tick of an ended rollout makes no call. It repeats a cancel or is refused. -/
theorem TickCourse.ended_cases {World : Type} {trace : List (Exchange World)}
    {outcome : Outcome Unit} (h : TickCourse u d command trace outcome)
    (hended : d.phase.isTerminal = true) :
    trace = [] ∧ (d.phase = .canceled ∧ outcome = (d, .ok ()) ∨
      outcome = (d, .error (.violation (.wrongPhase command.name d.phase)))) := by
  have hinactive (hphase : d.phase.isInProgress = true) : False := by
    rw [Phase.isTerminal_eq_false hphase] at hended
    cases hended
  cases h with
  | scaleRefused | canaryRefused | cancelRefused => exact ⟨rfl, Or.inr rfl⟩
  | cancelIdle hphase => exact ⟨rfl, Or.inl ⟨hphase, rfl⟩⟩
  | canaryIdle hphase => simp [hphase, Phase.isTerminal] at hended
  | scaleFailed hphase | scaled hphase | unfinalized hphase | finalized hphase
  | canaryMissing hphase | canaryFailed hphase | canaried hphase => exact (hinactive hphase).elim
  | unrestored hphase | unremoved hphase | canceled hphase =>
    rw [hphase] at hended
    cases hended

/-- What a tick of an ended rollout leaves. -/
structure Idle (scheduler : Scheduler (Store × Rest)) (census : Census Rest) (id : String)
    (u : Updater) (command : Command) (d : Deployment) (w : Store × Rest) (d' : Deployment) :
    Prop where
  /-- The tick makes no call. -/
  silent : u.tickTrace scheduler id command w = []
  /-- The record is in the store. -/
  held : (u.tick scheduler id command w).2.1.Holds id d'
  /-- Its counts and its gate are as they were. -/
  alike : Alike d d'
  /-- Its phase is as it was. -/
  phase : d'.phase = d.phase
  /-- The instances of all versions are as they were. -/
  kept : ∀ subject, census.of (u.tick scheduler id command w).2 subject = census.of w subject
  /-- Unless the rollout was canceled, the tick is refused for its phase. -/
  refused : d.phase ≠ .canceled → (u.tick scheduler id command w).1 =
    .failed (.violation (.wrongPhase command.name d.phase)) none

/-- A tick of an ended rollout saves at most an error and leaves the phase. -/
theorem Updater.settled_ended {outcome : Outcome Unit} (hended : d.phase.isTerminal = true)
    (houtcome : d.phase = .canceled ∧ outcome = (d, .ok ()) ∨
      outcome = (d, .error (.violation (.wrongPhase command.name d.phase)))) :
    Alike d (u.settled command d d outcome) ∧
      (u.settled command d d outcome).phase = d.phase := by
  rcases houtcome with ⟨-, rfl⟩ | rfl
  · rw [settled_ok, if_pos rfl]
    exact ⟨.refl d, rfl⟩
  · obtain ⟨halike, hphase⟩ := u.alike_settled_error command d d
      (.violation (.wrongPhase command.name d.phase))
    refine ⟨halike, hphase.resolve_right ?_⟩
    rintro ⟨hactive, -⟩
    rw [Phase.isTerminal_eq_false hactive] at hended
    cases hended

/-- Every tick of an ended rollout is idle, whatever its command. -/
theorem Updater.tick_ended (u : Updater) (scheduler : Scheduler (Store × Rest))
    (census : Census Rest) (command : Command) (hd : w.1.Holds id d)
    (hended : d.phase.isTerminal = true) : ∃ d', Idle scheduler census id u command d w d' := by
  obtain ⟨outcome, haction⟩ := u.action_of_terminal command hended
  have hruns : (u.action command d).Runs ([] : List (Exchange Unit)) outcome := by
    rw [haction]
    exact .done outcome
  obtain ⟨-, houtcome⟩ := (tickCourse_of_runs hruns).ended_cases hended
  obtain ⟨halike, hphase⟩ := u.settled_ended hended houtcome
  have hid : outcome.1.id = id :=
    (congrArg Terms.id (tickCourse_of_runs hruns).terms_eq).trans hd.own
  have htick : u.tick scheduler id command w = ((u.settle w.1 id command d outcome).1,
      (u.settle w.1 id command d outcome).2, w.2) := by
    rw [u.tick_of_read scheduler command hd.deployment,
      u.midway_of_read scheduler command hd.deployment, haction]
    rfl
  refine ⟨u.settled command d d outcome, ?_, ?_, halike, hphase, ?_, ?_⟩
  · rw [u.tickTrace_of_read scheduler command hd.deployment, haction]
    rfl
  · rw [htick]
    exact u.holds_settle command hd hid
  · rw [htick]
    exact census.of_eq (u.instances_settle command hd hid) rfl
  · intro hcanceled
    obtain rfl := houtcome.resolve_left fun h => hcanceled h.1
    rw [htick]
    exact congrArg Prod.fst (u.recordFailure_of_ok command hd.deployment (by simp))

/-! ## A rollout that is canceled -/

/-- A rollout that has been canceled in full. -/
structure Reverted (census : Census Rest) (id : String) (d : Deployment) (w : Store × Rest) :
    Prop where
  /-- The record is in the store. -/
  held : w.1.Holds id d
  /-- It says that it is canceled. -/
  phase : d.phase = .canceled
  /-- It counts no new instances. -/
  deploying : d.deployingInstances = 0
  /-- It counts all instances that were to be replaced. -/
  stable : d.stableInstances = d.originalInstances
  /-- These are the instances there are. -/
  counted : Counted census d w

/-- An idle tick leaves a canceled rollout reverted. -/
theorem Idle.reverted (h : Idle scheduler census id u command d w d')
    (hd : Reverted census id d w) :
    Reverted census id d' (u.tick scheduler id command w).2 where
  held := h.held
  phase := h.phase.trans hd.phase
  deploying := h.alike.deploying.trans hd.deploying
  stable := by rw [h.alike.stable, h.alike.original, hd.stable]
  counted := (hd.counted.of_alike h.alike).of_census h.kept

private theorem Reverted.isTerminal (h : Reverted census id d w) : d.phase.isTerminal = true := by
  rw [h.phase]
  rfl

/-- No ticks take a cancel back. -/
theorem Reverted.ticks (h : Reverted census id d w) (ticks : List (Updater × Command)) :
    ∃ d', Reverted census id d' (scheduler.afterTicks id ticks w) ∧ d'.terms = d.terms := by
  induction ticks generalizing d w with
  | nil => exact ⟨d, h, rfl⟩
  | cons t ticks ih =>
    obtain ⟨d₁, hidle⟩ := t.1.tick_ended scheduler census t.2 h.held h.isTerminal
    obtain ⟨d₂, h₂, hterms⟩ := ih (hidle.reverted h)
    exact ⟨d₂, h₂, hterms.trans hidle.alike.terms⟩

/-- A rollout that can still be canceled. -/
structure Open (id : String) (d : Deployment) (w : Store × Rest) : Prop where
  /-- The record is in the store. -/
  held : w.1.Holds id d
  /-- A version is not replaced by itself. -/
  versions : d.version ≠ d.previousVersion
  /-- The rollout has not ended. -/
  active : d.phase.isTerminal = false

/-- A cancel whose calls are answered reverts a rollout, whatever instances it finds. -/
theorem Open.cancel (h : Open id d w) (hreliable : scheduler.Reliable census) (u : Updater) :
    ∃ d', Reverted census id d' (u.tick scheduler id .cancel w).2 ∧ d'.terms = d.terms := by
  obtain ⟨outcome, made, hcourse, hmakes, hheld, hinstances, hrest⟩ :=
    u.tick_spec (hreliable.spares_id id) .cancel h.held
  have hterms := Updater.terms_settled hcourse rfl
  have hcensus := census.of_eq hinstances hrest
  have hanswered := hreliable.answered hmakes
  have hactive := h.active
  refine ⟨_, ?_, hterms⟩
  generalize u.tickTrace scheduler id .cancel w = trace at *
  cases hcourse with
  | cancelIdle hphase | cancelRefused hphase =>
    rw [hphase] at hactive
    cases hactive
  | unrestored | unremoved => simp at hanswered
  | canceled =>
    obtain ⟨hrestores, hmakes⟩ := hmakes.cons_inv
    obtain ⟨hremoves, hmakes⟩ := hmakes.cons_inv
    obtain rfl := hmakes.nil_inv
    have hcounted := Counted.canceled hreliable.toFaithful h.versions hrestores hremoves
    have halike : Alike d.reverted (u.settled .cancel d d (d.reverted, .ok ())) :=
      Updater.alike_settled_ok (.refl d.reverted)
    exact ⟨hheld, u.phase_settled_ok .cancel d d.reverted, halike.deploying,
      halike.stable.trans halike.original.symm, (hcounted.of_alike halike).of_census hcensus⟩

/-! ## A rollout that is finished -/

/-- A rollout before its first cancel: it is still open, or it has been finished and the version
that it replaces is gone. -/
inductive BeforeCancel (census : Census Rest) (id : String) (d : Deployment) (w : Store × Rest) :
    Prop where
  | opened (h : Open id d w)
  | finished (held : w.1.Holds id d) (hphase : d.phase = .deployed)
    (hretired : census.of w (d.appId, d.previousVersion) = 0)

private theorem Deployment.isTerminal_of_deployed (h : d.phase = .deployed) :
    d.phase.isTerminal = true := by
  rw [h]
  rfl

/-- No ticks take the end of a rollout back. -/
theorem finished_ticks (hd : w.1.Holds id d) (hphase : d.phase = .deployed) (census : Census Rest)
    (ticks : List (Updater × Command)) :
    ∃ d', (scheduler.afterTicks id ticks w).1.Holds id d' ∧ d'.phase = .deployed ∧
      d'.terms = d.terms ∧
      ∀ subject, census.of (scheduler.afterTicks id ticks w) subject = census.of w subject := by
  induction ticks generalizing d w with
  | nil => exact ⟨d, hd, hphase, rfl, fun _ => rfl⟩
  | cons t ticks ih =>
    obtain ⟨d₁, hidle⟩ :=
      t.1.tick_ended scheduler census t.2 hd (Deployment.isTerminal_of_deployed hphase)
    obtain ⟨d₂, hd₂, hphase₂, hterms, hkept⟩ := ih hidle.held (hidle.phase.trans hphase)
    exact ⟨d₂, hd₂, hphase₂, hterms.trans hidle.alike.terms,
      fun subject => (hkept subject).trans (hidle.kept subject)⟩

/-- A tick other than a cancel leaves an open rollout open, unless it is a scale tick that
finishes it. -/
theorem TickCourse.forward {trace : List (Exchange (Store × Rest))}
    (h : TickCourse u d command trace (d', .ok ())) (hforward : command ≠ .cancel)
    (hactive : d.phase.isTerminal = false) (hfaithful : scheduler.Faithful census)
    (hmakes : scheduler.Makes w trace made) :
    d'.phase.isTerminal = false ∨ command = .scale ∧ d'.phase = .deployed ∧
      census.of made (d.appId, d.previousVersion) = 0 := by
  cases h with
  | scaled _ hstep =>
    left
    rw [hstep.phase_eq]
    rfl
  | finalized _ _ _ removed =>
    obtain ⟨w₁, -, hremoves⟩ := hmakes.append_inv
    obtain ⟨heq, hnone⟩ := hremoves.cons_inv
    obtain rfl := hnone.nil_inv
    have hremoved := hfaithful.done (.remove d.appId d.previousVersion) w₁ 0 removed rfl
      (congrArg Prod.fst heq)
    rw [heq] at hremoved
    exact Or.inr ⟨rfl, rfl, hremoved⟩
  | canaryIdle => exact Or.inl hactive
  | @canaried _ c _ _ d₁ step hstep =>
    left
    rcases u.phase_afterCanaryStep c step d₁ with hphase | hphase
    · rw [hphase]
      rfl
    · rw [hphase, hstep.phase_eq]
      rfl
  | cancelIdle | canceled => exact absurd rfl hforward

/-- A tick that is no cancel leaves an open rollout open or finishes it. Only a scale tick finishes
it. -/
theorem Open.forward (h : Open id d w) (hreliable : scheduler.Reliable census) (u : Updater)
    (hforward : command ≠ .cancel) :
    ∃ d', BeforeCancel census id d' (u.tick scheduler id command w).2 ∧ d'.terms = d.terms ∧
      (d'.phase = .deployed → command = .scale) := by
  obtain ⟨outcome, made, hcourse, hmakes, hheld, hinstances, hrest⟩ :=
    u.tick_spec (hreliable.spares_id id) command h.held
  have hterms := Updater.terms_settled hcourse rfl
  have hcensus := census.of_eq hinstances hrest
  have hopen (hactive : (u.settled command d d outcome).phase.isTerminal = false) :
      ∃ d', BeforeCancel census id d' (u.tick scheduler id command w).2 ∧ d'.terms = d.terms ∧
        (d'.phase = .deployed → command = .scale) := by
    refine ⟨_, .opened ⟨hheld, Deployment.versions_of_terms hterms h.versions, hactive⟩, hterms, ?_⟩
    intro hphase
    rw [Deployment.isTerminal_of_deployed hphase] at hactive
    cases hactive
  obtain ⟨d₁, result⟩ := outcome
  cases result with
  | error e =>
    obtain ⟨-, hphase⟩ := u.alike_settled_error command d d₁ e
    apply hopen
    rcases hphase with hphase | ⟨-, hphase⟩
    · rw [hphase]
      exact h.active
    · rw [hphase]
      cases command <;> rfl
  | ok _ =>
    have hphase := u.phase_settled_ok command d d₁
    rcases hcourse.forward hforward h.active hreliable.toFaithful hmakes with
      hactive | ⟨hscale, hdeployed, hretired⟩
    · exact hopen (hphase ▸ hactive)
    · refine ⟨_, .finished hheld (hphase.trans hdeployed) ?_, hterms, fun _ => hscale⟩
      rw [hcensus, Deployment.replaced_of_terms hterms]
      exact hretired

/-- A tick that is no cancel leaves a rollout before its first cancel. -/
theorem BeforeCancel.forward (h : BeforeCancel census id d w)
    (hreliable : scheduler.Reliable census) (u : Updater) (hforward : command ≠ .cancel) :
    ∃ d', BeforeCancel census id d' (u.tick scheduler id command w).2 ∧ d'.terms = d.terms := by
  cases h with
  | opened h =>
    obtain ⟨d', hd', hterms, -⟩ := h.forward hreliable u hforward
    exact ⟨d', hd', hterms⟩
  | finished held hphase hretired =>
    obtain ⟨d', hidle⟩ :=
      u.tick_ended scheduler census command held (Deployment.isTerminal_of_deployed hphase)
    refine ⟨d', .finished hidle.held (hidle.phase.trans hphase) ?_, hidle.alike.terms⟩
    rw [hidle.kept, Deployment.replaced_of_terms hidle.alike.terms]
    exact hretired

/-- Any number of ticks that are no cancel leave it there. -/
theorem BeforeCancel.ticks (h : BeforeCancel census id d w) (hreliable : scheduler.Reliable census)
    {ticks : List (Updater × Command)} (hforward : ∀ t ∈ ticks, t.2 ≠ .cancel) :
    ∃ d', BeforeCancel census id d' (scheduler.afterTicks id ticks w) ∧ d'.terms = d.terms := by
  induction ticks generalizing d w with
  | nil => exact ⟨d, h, rfl⟩
  | cons t ticks ih =>
    obtain ⟨hfirst, hrest⟩ := List.forall_mem_cons.mp hforward
    obtain ⟨d₁, h₁, hterms₁⟩ := h.forward hreliable t.1 hfirst
    obtain ⟨d₂, h₂, hterms₂⟩ := ih h₁ hrest
    exact ⟨d₂, h₂, hterms₂.trans hterms₁⟩

/-! ## Any list of ticks -/

/-- A scale tick after which the rollout is deployed, with no cancel among the ticks before it. -/
structure FinishedBy (scheduler : Scheduler (Store × Rest)) (id : String) (w : Store × Rest)
    (earlier : List (Updater × Command)) (u : Updater) : Prop where
  /-- There is no cancel before. -/
  uncanceled : ∀ t ∈ earlier, t.2 ≠ .cancel
  /-- The scale tick leaves the rollout deployed. -/
  deployed : ∃ d, (scheduler.afterTicks id (earlier ++ [(u, .scale)]) w).1.deployment id = .ok d ∧
    d.phase = .deployed

/-- Unless a scale tick finishes the rollout before, the first cancel reverts it. -/
theorem Open.canceled (h : Open id d w) (hreliable : scheduler.Reliable census)
    {ticks : List (Updater × Command)} (hcancel : ∃ t ∈ ticks, t.2 = .cancel)
    (hunfinished : ∀ earlier u, earlier ++ [(u, .scale)] <+: ticks →
      ¬FinishedBy scheduler id w earlier u) :
    ∃ d', Reverted census id d' (scheduler.afterTicks id ticks w) ∧ d'.terms = d.terms := by
  induction ticks generalizing d w with
  | nil => simp at hcancel
  | cons t ticks ih =>
    obtain ⟨u, command⟩ := t
    by_cases hfirst : command = .cancel
    · subst hfirst
      obtain ⟨d₁, h₁, hterms₁⟩ := h.cancel hreliable u
      obtain ⟨d₂, h₂, hterms₂⟩ := h₁.ticks ticks
      exact ⟨d₂, h₂, hterms₂.trans hterms₁⟩
    · have hlater : ∃ t ∈ ticks, t.2 = .cancel := by simpa [hfirst] using hcancel
      obtain ⟨d₁, hbefore, hterms₁, hscale⟩ := h.forward hreliable u hfirst
      cases hbefore with
      | opened h₁ =>
        obtain ⟨d₂, h₂, hterms₂⟩ := ih h₁ hlater fun earlier u' hprefix hfinished =>
          hunfinished ((u, command) :: earlier) u' ((List.prefix_cons_inj _).mpr hprefix)
            ⟨List.forall_mem_cons.mpr ⟨hfirst, hfinished.uncanceled⟩, hfinished.deployed⟩
        exact ⟨d₂, h₂, hterms₂.trans hterms₁⟩
      | finished hheld hphase =>
        obtain rfl := hscale hphase
        have hprefix : [(u, Command.scale)] <+: (u, .scale) :: ticks := ⟨ticks, rfl⟩
        exact absurd ⟨by simp, d₁, hheld.deployment, hphase⟩ (hunfinished [] u hprefix)

/-- The end of a rollout that a cancel has reverted, with no calls after it. -/
structure CanceledInFull (scheduler : Scheduler (Store × Rest)) (census : Census Rest)
    (request : Request) (ticks : List (Updater × Command)) (w : Store × Rest) : Prop where
  /-- The record says that it is canceled, and counts what was there at first. -/
  record : ∃ d, (scheduler.afterTicks request.id ticks w).1.deployment request.id = .ok d ∧
    d.phase = .canceled ∧ d.stableInstances = d.originalInstances ∧
    d.originalInstances = request.originalInstances ∧ d.deployingInstances = 0
  /-- All instances are back that were to be replaced. -/
  stable : census.of (scheduler.afterTicks request.id ticks w)
    (request.appId, request.previousVersion) = request.originalInstances.toNat
  /-- No new ones are left. -/
  fresh : census.of (scheduler.afterTicks request.id ticks w) (request.appId, request.version) = 0
  /-- No tick after a cancel makes a call. -/
  silent : ∀ earlier u command, earlier ++ [(u, command)] <+: ticks →
    (∃ t ∈ earlier, t.2 = .cancel) →
      u.tickTrace scheduler request.id command (scheduler.afterTicks request.id earlier w) = []

/-- The end of a rollout that was finished first: all later ticks are refused. -/
structure StaysDeployed (scheduler : Scheduler (Store × Rest)) (census : Census Rest)
    (request : Request) (later : List (Updater × Command)) (w : Store × Rest) : Prop where
  /-- The version that was replaced is gone. -/
  retired : census.of w (request.appId, request.previousVersion) = 0
  /-- The record says that it is deployed, after each of the ticks. -/
  record : ∀ middle, middle <+: later →
    ∃ d, (scheduler.afterTicks request.id middle w).1.deployment request.id = .ok d ∧
      d.phase = .deployed
  /-- No instance comes or goes. -/
  kept : ∀ middle, middle <+: later → ∀ subject,
    census.of (scheduler.afterTicks request.id middle w) subject = census.of w subject
  /-- Every later tick is refused, and without a call. -/
  refused : ∀ middle u command, middle ++ [(u, command)] <+: later →
    u.tickTrace scheduler request.id command (scheduler.afterTicks request.id middle w) = [] ∧
      (u.tick scheduler request.id command (scheduler.afterTicks request.id middle w)).1 =
        .failed (.violation (.wrongPhase command.name .deployed)) none

/-- An open rollout is canceled in full by ticks with a cancel among them, unless a scale tick
finishes it first. -/
theorem Open.canceledInFull {request : Request} {now : UInt64} (h : Open request.id d w)
    (hterms : d.terms = (Deployment.begin request now).terms)
    (hreliable : scheduler.Reliable census) {ticks : List (Updater × Command)}
    (hcancel : ∃ t ∈ ticks, t.2 = .cancel)
    (hunfinished : ∀ earlier u, earlier ++ [(u, .scale)] <+: ticks →
      ¬FinishedBy scheduler request.id w earlier u) :
    CanceledInFull scheduler census request ticks w := by
  obtain ⟨d', h', hterms'⟩ := h.canceled hreliable hcancel hunfinished
  have hbegun := hterms'.trans hterms
  have horiginal : d'.originalInstances = request.originalInstances :=
    congrArg Terms.originalInstances hbegun
  have hstable := h'.counted.stable
  have hfresh := h'.counted.fresh
  rw [Deployment.replaced_of_terms hbegun, h'.stable, horiginal] at hstable
  rw [Deployment.fresh_of_terms hbegun, h'.deploying] at hfresh
  refine ⟨⟨d', h'.held.deployment, h'.phase, h'.stable, horiginal, h'.deploying⟩, hstable, hfresh,
    ?_⟩
  intro earlier u command hprefix hcanceled
  obtain ⟨d₁, h₁, -⟩ := h.canceled hreliable hcanceled fun before u' hbefore =>
    hunfinished before u' (hbefore.trans ((List.prefix_append _ _).trans hprefix))
  obtain ⟨d₂, hidle⟩ := u.tick_ended scheduler census command h₁.held h₁.isTerminal
  exact hidle.silent

/-- A rollout that a scale tick has finished stays deployed, also through later cancels. -/
theorem Open.staysDeployed {request : Request} {now : UInt64} (h : Open request.id d w)
    (hterms : d.terms = (Deployment.begin request now).terms)
    (hreliable : scheduler.Reliable census) {earlier later : List (Updater × Command)}
    (hfinished : FinishedBy scheduler request.id w earlier u) :
    StaysDeployed scheduler census request later
      (scheduler.afterTicks request.id (earlier ++ [(u, .scale)]) w) := by
  have hforward : ∀ t ∈ earlier ++ [(u, Command.scale)], t.2 ≠ .cancel :=
    List.forall_mem_append.mpr ⟨hfinished.uncanceled, by simp⟩
  obtain ⟨d₁, h₁, hterms₁⟩ := (BeforeCancel.opened h).ticks hreliable hforward
  obtain ⟨d₂, hrecord, hphase⟩ := hfinished.deployed
  generalize scheduler.afterTicks request.id (earlier ++ [(u, .scale)]) w = finished at *
  cases h₁ with
  | opened h₁ =>
    obtain rfl := Except.ok.inj (h₁.held.deployment.symm.trans hrecord)
    have hactive := h₁.active
    rw [hphase] at hactive
    cases hactive
  | finished hheld hphase₁ hretired =>
    rw [Deployment.replaced_of_terms (hterms₁.trans hterms)] at hretired
    have hafter (middle : List (Updater × Command)) :
        ∃ d', (scheduler.afterTicks request.id middle finished).1.Holds request.id d' ∧
          d'.phase = .deployed ∧ d'.terms = d₁.terms ∧ ∀ subject,
            census.of (scheduler.afterTicks request.id middle finished) subject =
              census.of finished subject :=
      finished_ticks hheld hphase₁ census middle
    refine ⟨hretired, fun middle _ => ?_, fun middle _ => ?_, fun middle u command _ => ?_⟩
    · obtain ⟨d', hd', hphase', -⟩ := hafter middle
      exact ⟨d', hd'.deployment, hphase'⟩
    · obtain ⟨-, -, -, -, hkept⟩ := hafter middle
      exact hkept
    · obtain ⟨d', hd', hphase', -⟩ := hafter middle
      obtain ⟨_, hidle⟩ :=
        u.tick_ended scheduler census command hd' (Deployment.isTerminal_of_deployed hphase')
      have hrefused := hidle.refused (by rw [hphase']; nofun)
      rw [hphase'] at hrefused
      exact ⟨hidle.silent, hrefused⟩

/-- Turns keep the terms of a deployment, whether or not the calls of their ticks fail. -/
theorem Turn.holds (hturn : Turn scheduler census id w w') (hspares : scheduler.Spares id)
    (hd : w.1.Holds id d) : ∃ d', w'.1.Holds id d' ∧ d'.terms = d.terms := by
  cases hturn with
  | tick u command => exact u.holds_tick command hspares hd
  | cancelRequest =>
    refine ⟨Operator.canceled d, ?_, Operator.terms_canceled d⟩
    rw [Operator.requestCancel_eq_write hd]
    exact w.1.holds_write_of_id ((Operator.id_canceled d).trans hd.own)
  | promotion =>
    refine ⟨Operator.promoted d, ?_, Operator.terms_promoted d⟩
    rw [Operator.promote_eq_write hd]
    exact w.1.holds_write_of_id ((Operator.id_promoted d).trans hd.own)
  | health hbeside => exact ⟨d, hd.of_get?_eq hbeside, rfl⟩

/-- Whatever happens, the record stays in the store and keeps its terms. -/
theorem turns_hold (hturns : Relation.ReflTransGen (Turn scheduler census id) w w')
    (hspares : scheduler.Spares id) (hd : w.1.Holds id d) :
    ∃ d', w'.1.Holds id d' ∧ d'.terms = d.terms := by
  induction hturns with
  | refl => exact ⟨d, hd, rfl⟩
  | tail _ hturn ih =>
    obtain ⟨d₁, hd₁, hterms₁⟩ := ih
    obtain ⟨d₂, hd₂, hterms₂⟩ := hturn.holds hspares hd₁
    exact ⟨d₂, hd₂, hterms₂.trans hterms₁⟩

/-- Whatever has happened to a rollout, and however often the scheduler has failed: once its calls
succeed, ticks that contain a cancel revert the rollout in full, in any order. Only if a scale
tick finishes it before the first cancel it stays deployed, and everything later is refused. -/
theorem cancel_wins {before : Scheduler (Store × Rest)} {request : Request} {now : UInt64}
    {d₀ : Deployment} {store created : Store} {rest : Rest} {ticks : List (Updater × Command)}
    (hnew : Deployment.new request now = .ok d₀) (hcreate : store.create d₀ = .ok created)
    (hspares : before.Spares request.id)
    (hturns : Relation.ReflTransGen (Turn before census request.id) (created, rest) w)
    (hrecord : w.1.deployment request.id = .ok d) (hactive : d.phase.isTerminal = false)
    (hreliable : scheduler.Reliable census) (hcancel : ∃ t ∈ ticks, t.2 = .cancel) :
    ((∀ earlier u, earlier ++ [(u, .scale)] <+: ticks →
      ¬FinishedBy scheduler request.id w earlier u) →
        CanceledInFull scheduler census request ticks w) ∧
    ∀ earlier u later, ticks = earlier ++ [(u, .scale)] ++ later →
      FinishedBy scheduler request.id w earlier u →
        StaysDeployed scheduler census request later
          (scheduler.afterTicks request.id (earlier ++ [(u, .scale)]) w) := by
  obtain ⟨rfl, hsound⟩ := Deployment.new_eq_ok hnew
  obtain ⟨d₁, hd₁, hterms⟩ := turns_hold hturns hspares (Store.holds_create hcreate)
  obtain rfl := Except.ok.inj (hd₁.deployment.symm.trans hrecord)
  have hopen : Open request.id d₁ w :=
    ⟨hd₁, Deployment.versions_of_terms hterms hsound.versions, hactive⟩
  exact ⟨hopen.canceledInFull hterms hreliable hcancel, fun earlier u later _ hfinished =>
    hopen.staysDeployed hterms hreliable hfinished⟩

/-- A scale tick has failed, and a cancel comes between another one and a canary tick. -/
theorem cancel_wins_after_failure :
    let failing : Scheduler (Store × (String × String → UInt32)) := fun _ w =>
      (.error (.unavailable "timeout"), w)
    let d₀ := Deployment.begin .canaryOfOne 0
    let u : Updater := ⟨.fixed 1, 1⟩
    let w := (u.tick failing d₀.id .scale (Store.empty.write d₀, Request.canaryOfOne.counts)).2
    CanceledInFull Scheduler.counting Scheduler.numbers .canaryOfOne
      [(u, .canary), (u, .cancel), (u, .scale)] w := by
  intro failing d₀ u
  have hnew : Deployment.new .canaryOfOne 0 = .ok d₀ := rfl
  have hcreate : Store.empty.create d₀ = .ok (Store.empty.write d₀) := rfl
  have hheld : (Store.empty.write d₀).Holds d₀.id d₀ := Store.empty.holds_write d₀
  -- The store and the world are left open, so that the check does not read their texts.
  generalize Store.empty.write d₀ = created at *
  intro w
  have hw : w = (u.tick failing d₀.id .scale (created, Request.canaryOfOne.counts)).2 := rfl
  clear_value w
  let marked := (u.withFailure .scale (.scheduler (.unavailable "timeout")) d₀).nextRevision
  have hrun : (u.action .scale d₀).run failing (created, Request.canaryOfOne.counts) =
      ((d₀.setPhase .deploying, .error (.scheduler (.unavailable "timeout"))),
        (created, Request.canaryOfOne.counts)) := rfl
  have hsettle (e : TickError) :
      u.settle created d₀.id .scale d₀ (d₀.setPhase .deploying, .error e) =
        u.recordFailure created d₀.id .scale e := rfl
  have hstore : w.1 = created.write marked := by
    have htick := u.tick_of_read failing .scale (w := (created, Request.canaryOfOne.counts))
      hheld.deployment
    rw [u.midway_of_read failing .scale hheld.deployment, hrun, hsettle,
      u.recordFailure_eq_write .scale hheld (by simp)] at htick
    rw [hw, htick]
  have hrecord : w.1.deployment d₀.id = .ok marked := by
    have hid : marked.id = d₀.id := u.id_withFailure .scale _ d₀
    rw [hstore]
    exact (created.holds_write_of_id hid).deployment
  have hturns : Relation.ReflTransGen (Turn failing Scheduler.numbers d₀.id)
      (created, Request.canaryOfOne.counts) w := hw ▸ .single (.tick u .scale _)
  refine (cancel_wins hnew hcreate (fun _ _ => rfl) hturns hrecord rfl
    Scheduler.exact_counting.reliable ⟨(u, .cancel), by simp, rfl⟩).1 ?_
  rintro (_ | ⟨t, _ | ⟨t', earlier⟩⟩) u' hprefix hfinished
  · simp at hprefix
  · simp at hprefix
  · obtain ⟨-, rfl, -⟩ : t = (u, .canary) ∧ t' = (u, .cancel) ∧ _ := by simpa using hprefix
    exact hfinished.uncanceled (u, .cancel) (by simp) rfl

end Rollout
