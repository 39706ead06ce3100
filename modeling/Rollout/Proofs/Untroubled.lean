import Rollout.Proofs.Agreement
import Rollout.Proofs.TickOutcome

/-!
# Runs without errors

The only failures that a rollout can meet are those of the scheduler. The driver sends no command
that its phase refuses, the target of a canary never passes its total, and a rollout that is
finished has come up to the desired number. As long as all calls are answered, then, whatever
they say of health, no tick fails and the record never shows an error.
-/

namespace Rollout

variable {Rest : Type} {scheduler : Scheduler (Store × Rest)} {policy : StepPolicy}
  {d d' : Deployment} {id : String} {command : Command} {w w' : Store × Rest}
  {trace : List (Exchange (Store × Rest))}

/-! ## What a tick can fail with -/

/-- A failure that is the answer to one of the calls. -/
def FromCall {World : Type} (trace : List (Exchange World)) (e : TickError) : Prop :=
  ∃ x ∈ trace, ∃ failure, x.answer = .error failure ∧ e = .scheduler failure

section

variable {World : Type} {trace : List (Exchange World)} {e : TickError}

private theorem not_fromCall_of_answered (h : ∀ x ∈ trace, x.Answered) : ¬FromCall trace e := by
  rintro ⟨x, hx, failure, hfailed, -⟩
  obtain ⟨answer, hanswer⟩ := h x hx
  rw [hfailed] at hanswer
  cases hanswer

/-- With a cap within its target a scale step fails only by a call. -/
theorem ScaleCourse.fromCall {goal : ScaleGoal} (h : ScaleCourse policy goal d trace (d', .error e))
    (hgoal : goal.violation? = none) : FromCall trace e := by
  cases h with
  | refused hviolation =>
    rw [hgoal] at hviolation
    cases hviolation
  | unanswered _ failure => exact ⟨_, List.mem_cons_self, failure, rfl, rfl⟩
  | unretired _ _ _ _ failure =>
    exact ⟨_, List.mem_cons_of_mem _ List.mem_cons_self, failure, rfl, rfl⟩
  | stepped _ _ _ _ _ hmoving =>
    cases hmoving with
    | failed _ _ failure =>
      exact ⟨_, List.mem_append_right _ List.mem_cons_self, failure, rfl, rfl⟩

/-- A tick that the phase calls for is not refused, so it fails only by a call. -/
theorem TickCourse.fromCall {u : Updater} (hgated : Gated d) (hcommand : d.command? = some command)
    (h : TickCourse u d command trace (d', .error e)) : FromCall trace e := by
  cases h with
  | scaleRefused hphase =>
    rw [(Deployment.command?_eq_scale hcommand).1] at hphase
    cases hphase
  | scaleFailed _ hstep => exact hstep.fromCall rfl
  | unfinalized _ _ _ failure =>
    exact ⟨_, List.mem_append_right _ List.mem_cons_self, failure, rfl, rfl⟩
  | canaryRefused _ hphase =>
    rw [(Deployment.command?_eq_canary hcommand).1] at hphase
    cases hphase
  | canaryMissing _ hcanary =>
    obtain ⟨c, hsome⟩ := (Deployment.command?_eq_canary hcommand).2
    rw [hsome] at hcanary
    cases hcanary
  | canaryFailed _ hcanary hstep =>
    exact hstep.fromCall (Canary.violation?_goal (hgated.target _ hcanary))
  | cancelRefused hphase =>
    rw [Deployment.command?_eq_cancel hcommand] at hphase
    cases hphase
  | unrestored _ failure => exact ⟨_, List.mem_cons_self, failure, rfl, rfl⟩
  | unremoved _ failure =>
    exact ⟨_, List.mem_cons_of_mem _ List.mem_cons_self, failure, rfl, rfl⟩

/-- A tick that succeeds does not make a rollout failed. -/
theorem TickCourse.phase_ne_failed {u : Updater} (h : TickCourse u d command trace (d', .ok ()))
    (hphase : d.phase ≠ .failed) : d'.phase ≠ .failed := by
  cases h with
  | scaled _ hstep => exact hstep.phase_eq ▸ nofun
  | finalized | canceled => exact nofun
  | canaryIdle | cancelIdle => exact hphase
  | @canaried _ c _ _ d₁ step hstep =>
    rcases u.phase_afterCanaryStep c step d₁ with hpaused | hsame
    · exact hpaused ▸ nofun
    · rw [hsame, hstep.phase_eq]
      exact nofun

end

/-! ## Moves -/

/-- The record of a rollout that has met no error. -/
structure Untroubled (d : Deployment) : Prop where
  /-- The counts lie within the gate. -/
  gated : Gated d
  /-- The record shows no error. -/
  error : d.error = none
  /-- It has not failed. -/
  phase : d.phase ≠ .failed

/-- A new rollout has met no error. -/
theorem untroubled_begin {request : Request} (h : request.Sound) (now : UInt64) :
    Untroubled (Deployment.begin request now) :=
  ⟨gated_begin h now, rfl, nofun⟩

/-- A tick that the phase calls for does not fail, as long as its calls are answered. -/
theorem Untroubled.succeeds {World : Type} {u : Updater} {trace : List (Exchange World)}
    {outcome : Outcome Unit} (h : Untroubled d) (hcommand : d.command? = some command)
    (hcourse : TickCourse u d command trace outcome) (hanswered : ∀ x ∈ trace, x.Answered) :
    outcome.2 = .ok () := by
  obtain ⟨d', result⟩ := outcome
  cases result with
  | error e =>
    exact absurd (hcourse.fromCall h.gated hcommand) (not_fromCall_of_answered hanswered)
  | ok _ => rfl

/-- The end of a tick that has succeeded writes no error. -/
theorem Updater.error_settled_ok (u : Updater) (command : Command) (d copy : Deployment) :
    (u.settled command d d (copy, .ok ())).error = copy.error := by
  rw [settled_ok]
  split
  · next heq => rw [heq]
  · rw [if_pos rfl]

/-- A tick whose calls are all answered leaves the record without errors. -/
theorem Untroubled.settled {World : Type} {trace : List (Exchange World)} {now : UInt64}
    {outcome : Outcome Unit} (h : Untroubled d) (hcommand : d.command? = some command)
    (hcourse : TickCourse ⟨policy, now⟩ d command trace outcome)
    (hanswered : ∀ x ∈ trace, x.Answered) :
    Untroubled (Updater.settled ⟨policy, now⟩ command d d outcome) := by
  have hadvance := (RecordMove.tick now hcommand hcourse).advance h.gated
  obtain ⟨copy, result⟩ := outcome
  obtain rfl : result = .ok () := h.succeeds hcommand hcourse hanswered
  refine ⟨hadvance.gated h.gated, ?_, ?_⟩
  · rw [Updater.error_settled_ok]
    exact hcourse.draft.error.trans h.error
  · rw [Updater.phase_settled_ok]
    exact hcourse.phase_ne_failed h.phase

/-- Moves whose calls are answered bring no error. -/
theorem RecordMove.untroubled (hmove : RecordMove policy d trace d') (h : Untroubled d)
    (hanswered : ∀ x ∈ trace, x.Answered) : Untroubled d' := by
  have hgated := (hmove.advance h.gated).gated h.gated
  cases hmove with
  | idle => exact h
  | tick now hcommand hcourse => exact h.settled hcommand hcourse hanswered
  | cancelRequest =>
    refine ⟨hgated, ?_, ?_⟩ <;> unfold Operator.canceled Deployment.requestCancel? <;> split
    · exact h.error
    · exact h.error
    · exact h.phase
    · exact nofun
  | promotion =>
    refine ⟨hgated, ?_, ?_⟩ <;> unfold Operator.promoted Deployment.promote? <;> split
    · exact h.error
    · exact h.error
    · exact nofun
    · exact h.phase

/-! ## Runs -/

private theorem Move.answered {aside : Store × Rest → Store × Rest → Prop}
    (hmove : Move scheduler policy id aside w trace w') (hanswers : scheduler.Answers) :
    ∀ x ∈ trace, x.Answered := by
  cases hmove with
  | pass now w =>
    unfold Updater.driveTrace
    split
    · simp
    · exact (Updater.makes_midway _ scheduler _ id w).answered hanswers
  | cancelRequest | promotion | aside => simp

/-- A record that has met no error meets none in a run whose calls are all answered. -/
theorem Run.untroubled {aside : Store × Rest → Store × Rest → Prop}
    (hrun : Run scheduler policy id aside w trace w') (hspares : scheduler.Spares id)
    (haside : ∀ w w', aside w w' → Beside id w w') (hanswers : scheduler.Answers)
    (hd : w.1.Holds id d) (h : Untroubled d) : ∃ d', w'.1.Holds id d' ∧ Untroubled d' := by
  induction hrun with
  | start => exact ⟨d, hd, h⟩
  | move _ hmove ih =>
    obtain ⟨d₁, hd₁, h₁⟩ := ih
    obtain ⟨d₂, hd₂, hrecord⟩ := hmove.recordMove hspares haside hd₁
    exact ⟨d₂, hd₂, hrecord.untroubled h₁ (hmove.answered hanswers)⟩

/-! ## Ticks -/

/-- A tick that has gone through: its copy is written, or there was nothing to write. -/
inductive TickReport.Succeeded : TickReport → Prop where
  | committed (written : Deployment) : Succeeded (.committed written)
  | unchanged (read : Deployment) : Succeeded (.unchanged read)

/-- Nobody has written the record while the calls were made, so a copy is committed. -/
theorem Updater.settle_succeeded (u : Updater) (command : Command) {store : Store}
    {copy : Deployment} (hd : store.Holds id d) (hid : copy.id = id) :
    (u.settle store id command d (copy, .ok ())).1.Succeeded := by
  by_cases hsame : copy = d
  · rw [settle, if_pos hsame]
    exact .unchanged copy
  · rw [settle_of_commit u command hsame
      (hd.commit_eq_ok (d := { copy with updatedAt := u.now }) hid)]
    exact .committed _

/-- The tick that the driver makes goes through. -/
theorem Untroubled.tick_succeeded {u : Updater} (h : Untroubled d) (hd : w.1.Holds id d)
    (hcommand : d.command? = some command) (hspares : scheduler.Spares id)
    (hanswers : scheduler.Answers) : (u.tick scheduler id command w).1.Succeeded := by
  have hcourse := tickCourse_of_runs ((u.action command d).runs_trace scheduler w)
  have hmakes := scheduler.makes_trace (u.action command d) w
  have hresult := h.succeeds hcommand hcourse (hmakes.answered hanswers)
  have hid : ((u.action command d).run scheduler w).1.1.id = id :=
    (congrArg Terms.id hcourse.terms_eq).trans hd.own
  rw [u.tick_of_read scheduler command hd.deployment,
    u.midway_of_read scheduler command hd.deployment]
  generalize (u.action command d).run scheduler w = ended at *
  obtain ⟨⟨copy, result⟩, made⟩ := ended
  obtain rfl : result = .ok () := hresult
  exact u.settle_succeeded command (hmakes.holds hspares hd) hid

/-- A rollout without errors: the record shows none, and the tick that its phase calls for is
neither refused nor overtaken. -/
structure ErrorFree (scheduler : Scheduler (Store × Rest)) (policy : StepPolicy) (id : String)
    (d : Deployment) (w : Store × Rest) : Prop where
  /-- The record is in the store. -/
  record : w.1.deployment id = .ok d
  /-- It shows no error. -/
  error : d.error = none
  /-- It has not failed. -/
  phase : d.phase ≠ .failed
  /-- The target of its gate is within the total. -/
  cap : ∀ c ∈ d.canary, c.currentInstanceTarget ≤ c.totalInstances
  /-- Whatever the calls are answered, the command that the phase calls for fails only with the
  failure of a call. -/
  accepted : ∀ (u : Updater) command (trace : List (Exchange (Store × Rest))) copy e,
    d.command? = some command → (u.action command d).Runs trace (copy, .error e) →
      ∃ failure, e = .scheduler failure
  /-- The tick that the driver makes goes through. -/
  ticks : ∀ command now, d.command? = some command →
    (Updater.tick ⟨policy, now⟩ scheduler id command w).1.Succeeded

/-- However passes of the driver and operator requests follow one another, a rollout whose
scheduler calls all succeed is without errors at every point. -/
theorem runs_error_free {request : Request} {now : UInt64} {d₀ : Deployment}
    {store created : Store} {rest : Rest} (hnew : Deployment.new request now = .ok d₀)
    (hcreate : store.create d₀ = .ok created) (hspares : scheduler.Spares request.id)
    (hanswers : scheduler.Answers)
    (hrun : Run scheduler policy request.id (Beside request.id) (created, rest) trace w) :
    ∃ d, ErrorFree scheduler policy request.id d w := by
  obtain ⟨rfl, hsound⟩ := Deployment.new_eq_ok hnew
  obtain ⟨d, hd, huntroubled⟩ := hrun.untroubled hspares (fun _ _ h => h) hanswers
    (Store.holds_create hcreate) (untroubled_begin hsound now)
  refine ⟨d, hd.deployment, huntroubled.error, huntroubled.phase, ?_, ?_, ?_⟩
  · intro c hc
    exact UInt32.le_iff_toNat_le.mpr (huntroubled.gated.target c hc)
  · intro u command trace copy e hcommand hruns
    obtain ⟨-, -, failure, -, he⟩ :=
      (tickCourse_of_runs hruns).fromCall huntroubled.gated hcommand
    exact ⟨failure, he⟩
  · intro command now hcommand
    exact huntroubled.tick_succeeded hd hcommand hspares hanswers

/-- A canary with two passes, a request to promote it that comes too early, and a cancel. -/
theorem runs_error_free_after_cancel :
    let driver (now : UInt64) := Updater.drive ⟨.fixed 1, now⟩ Scheduler.counting
      Request.canaryOfOne.id
    let created := Store.empty.write (Deployment.begin .canaryOfOne 0)
    let passed := driver 2 (driver 1 (created, Request.canaryOfOne.counts))
    let promoted := ((Operator.promote passed.1 Request.canaryOfOne.id).2, passed.2)
    let asked := ((Operator.requestCancel promoted.1 Request.canaryOfOne.id).2, promoted.2)
    ∃ d, ErrorFree Scheduler.counting (.fixed 1) Request.canaryOfOne.id d (driver 3 asked) := by
  intro driver created passed promoted asked
  have hnew : Deployment.new .canaryOfOne 0 = .ok (Deployment.begin .canaryOfOne 0) := rfl
  have hcreate : Store.empty.create (Deployment.begin .canaryOfOne 0) = .ok created := rfl
  have hstart : Run Scheduler.counting (.fixed 1) Request.canaryOfOne.id
      (Beside Request.canaryOfOne.id) (created, Request.canaryOfOne.counts) []
      (created, Request.canaryOfOne.counts) := .start _
  have hpassed := (hstart.move (.pass 1 _)).move (.pass 2 _)
  have hrun := ((hpassed.move (.promotion passed)).move (.cancelRequest promoted)).move
    (.pass 3 asked)
  exact runs_error_free hnew hcreate (Scheduler.exact_counting.spares_id _)
    Scheduler.exact_counting.answers hrun

end Rollout
