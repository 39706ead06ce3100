import Rollout.Proofs.Census
import Rollout.Proofs.Script
import Rollout.Proofs.TickOutcome

/-!
# What is left of a failed cancel

A cancel can fail at either of its two calls, or when its outcome is written, and the rollout is
then half reverted. The record is left to be canceled, so that every pass makes both calls again
until none of them fails. Only a rollout that is paused when the failure is written stays paused,
and no pass goes on with its cancel.
-/

namespace Rollout

private theorem Table.insert_ne_empty {α : Type} (t : Table α) (key : String) (value : α) :
    t.insert key value ≠ .empty := by
  intro heq
  have hvalue := t.get?_insert key key value
  rw [heq, if_pos rfl] at hvalue
  cases hvalue

/-- A commit that expects the revision of the record that can be read goes through. -/
theorem Store.commit_of_read {store : Store} {id : String} {d stored : Deployment}
    (hread : store.deployment id = .ok stored) (hid : d.id = id) :
    store.commit d stored.revision = .ok ({ d with revision := stored.revision + 1 },
      store.overwrite id { d with revision := stored.revision + 1 }) := by
  rw [commit, hid, hread]
  simp [overwrite]

/-- A cancel changes the record of an active rollout. -/
theorem Deployment.reverted_ne {d : Deployment} (h : d.phase.isTerminal = false) :
    d.reverted ≠ d := by
  intro heq
  have hphase : d.phase = .canceled := (congrArg Deployment.phase heq).symm
  rw [hphase] at h
  cases h

/-- A failed cancel puts an active rollout that is not paused into the phase in which it is to be
canceled, if it is not there already. -/
theorem FailureMark.canceling {u : Updater} {e : TickError} {stored marked : Deployment}
    (h : FailureMark u .cancel e stored marked) (haccepted : e.isRefusal = false)
    (hactive : stored.phase.isTerminal = false) (hrunning : stored.phase ≠ .paused) :
    marked.phase = .canceling := by
  cases hphase : stored.phase with
  | deploying => exact (h.moved haccepted (Or.inl hphase)).1
  | failed => exact (h.moved haccepted (Or.inr hphase)).1
  | canceling =>
    have hkept : stored.phase ≠ .deploying ∧ stored.phase ≠ .failed := by simp [hphase]
    exact (h.kept (Or.inr hkept)).1.trans hphase
  | paused => exact absurd hphase hrunning
  | deployed | canceled =>
    rw [hphase] at hactive
    cases hactive

namespace Updater

variable {Rest : Type} {u : Updater} {scheduler : Scheduler (Store × Rest)} {id : String}
  {w : Store × Rest} {d before stored : Deployment}

/-- A failure that is recorded is also reported. -/
theorem report_recordFailure (u : Updater) (store : Store) (id : String) (command : Command)
    (e : TickError) : ∃ unsaved, (u.recordFailure store id command e).1 = .failed e unsaved := by
  unfold recordFailure
  split
  · exact ⟨none, rfl⟩
  · split
    · exact ⟨none, rfl⟩
    · exact ⟨_, rfl⟩

/-- A failure is reported as it is, also when it cannot be saved. -/
theorem eq_of_report {store : Store} {command : Command} {e e' : TickError}
    {unsaved : Option StoreError}
    (h : (u.recordFailure store id command e').1 = .failed e unsaved) : e' = e := by
  obtain ⟨unsaved', hreport⟩ := u.report_recordFailure store id command e'
  rw [hreport] at h
  exact (TickReport.failed.inj h).1

/-! ## Failed cancels -/

/-- The cancel of an active rollout fails because of a call or of its commit. It is never
refused, and its failure is recorded after its calls. -/
theorem tick_of_failed_cancel {e : TickError} {unsaved : Option StoreError}
    (hread : w.1.deployment id = .ok before) (hactive : before.phase.isTerminal = false)
    (hfailed : (u.tick scheduler id .cancel w).1 = .failed e unsaved) :
    ((∃ failure, e = .scheduler failure) ∨ ∃ failure, e = .store failure) ∧
      u.tick scheduler id .cancel w =
        ((u.recordFailure (u.midway scheduler id .cancel w).1 id .cancel e).1,
          (u.recordFailure (u.midway scheduler id .cancel w).1 id .cancel e).2,
          (u.midway scheduler id .cancel w).2) := by
  have htick := tick_of_read u scheduler .cancel hread
  have hscripted := (tickCourse_of_runs
    ((u.action .cancel before).runs_trace scheduler w)).scripted_cancel hactive
  generalize houtcome : ((u.action .cancel before).run scheduler w).1 = outcome at htick hscripted
  cases hscripted with
  | @failed copy failure =>
    have hsettle (store : Store) : u.settle store id .cancel before
        (copy, .error (.scheduler failure)) = u.recordFailure store id .cancel
          (.scheduler failure) := rfl
    rw [hsettle] at htick
    rw [htick] at hfailed
    obtain rfl := eq_of_report hfailed
    exact ⟨Or.inl ⟨failure, rfl⟩, htick⟩
  | full _ _ hfull =>
    subst hfull
    have hchanged := Deployment.reverted_ne hactive
    cases hcommit : (u.midway scheduler id .cancel w).1.commit
        { before.reverted with updatedAt := u.now } before.revision with
    | ok written =>
      rw [settle_of_commit u .cancel hchanged hcommit] at htick
      rw [htick] at hfailed
      cases hfailed
    | error failure =>
      rw [settle_of_conflict u .cancel hchanged hcommit] at htick
      rw [htick] at hfailed
      obtain rfl := eq_of_report hfailed
      exact ⟨Or.inr ⟨failure, rfl⟩, htick⟩

/-- The calls of the cancel of an active rollout are the first of its script. -/
theorem calls_of_cancel (hread : w.1.deployment id = .ok before)
    (hactive : before.phase.isTerminal = false) :
    (u.tickTrace scheduler id .cancel w).map Exchange.call <+: before.cancelCalls := by
  have hcourse := tickCourse_of_runs ((u.action .cancel before).runs_trace scheduler w)
  rw [tickTrace_of_read u scheduler .cancel hread]
  exact (hcourse.scripted_cancel hactive).isPrefix

/-- A cancel whose second call fails has restored the stable instances. -/
theorem run_half_cancel {World : Type} {scheduler : Scheduler World} {w w₁ w₂ : World}
    {e : SchedulerError} (u : Updater) (hactive : d.phase.isTerminal = false)
    (hrestores : scheduler (.setCount d.appId d.previousVersion d.originalInstances) w =
      (.ok (), w₁))
    (hremoves : scheduler (.remove d.appId d.version) w₁ = (.error e, w₂)) :
    (u.action .cancel d).run scheduler w = ((d, .error (.scheduler e)), w₂) := by
  simp only [action, Action.andThen, Plan.run_bind, cancel_eq_ask hactive, Action.ask,
    Plan.run_call, hrestores, hremoves, Action.fail, Plan.run_done]

/-! ## Cancels that are resumed -/

/-- What a pass does for a rollout that is to be canceled, whatever an earlier cancel has left: it
makes the calls of a cancel from the first one, up to one that fails. If none fails, and nobody
writes the record in between, the rollout is canceled. -/
structure Resumes (u : Updater) (scheduler : Scheduler (Store × Rest)) (id : String)
    (d : Deployment) (w : Store × Rest) : Prop where
  /-- The pass makes a cancel tick. -/
  ticks : u.drive scheduler id w = (u.tick scheduler id .cancel w).2
  /-- Its calls are those of a cancel, from the first one on. -/
  calls : (u.driveTrace scheduler id w).map Exchange.call <+: d.cancelCalls
  /-- If all of them are answered and the record is left alone, the rollout is canceled. -/
  reverts : (∀ x ∈ u.driveTrace scheduler id w, x.Answered) →
    (u.midway scheduler id .cancel w).1.deployment id = .ok d →
      (u.driveTrace scheduler id w).map Exchange.call = d.cancelCalls ∧
      (u.drive scheduler id w).1.deployment id =
        .ok { d.reverted with updatedAt := u.now, revision := d.revision + 1 }

/-- The next pass for a rollout that is to be canceled begins its cancel anew. -/
theorem resumes (u : Updater) (scheduler : Scheduler (Store × Rest)) (hown : d.id = id)
    (hphase : d.phase = .canceling) (hread : w.1.deployment id = .ok d) :
    u.Resumes scheduler id d w := by
  have hactive : d.phase.isTerminal = false := by
    rw [hphase]
    rfl
  have hcommand : (read w.1 id).toOption.bind Deployment.command? = some .cancel := by
    rw [read_eq_ok_iff.mpr hread]
    change d.command? = some .cancel
    rw [Deployment.command?, hphase]
  have hdrive : u.drive scheduler id w = (u.tick scheduler id .cancel w).2 := by
    rw [drive, hcommand]
  have hdriveTrace : u.driveTrace scheduler id w = (u.action .cancel d).trace scheduler w := by
    rw [driveTrace, hcommand]
    exact tickTrace_of_read u scheduler .cancel hread
  have hscripted := (tickCourse_of_runs
    ((u.action .cancel d).runs_trace scheduler w)).scripted_cancel hactive
  rw [← hdriveTrace] at hscripted
  refine ⟨hdrive, hscripted.isPrefix, fun hanswered hmidway => ?_⟩
  have htick := tick_of_read u scheduler .cancel hread
  generalize houtcome : ((u.action .cancel d).run scheduler w).1 = outcome at htick hscripted
  cases hscripted with
  | failed _ hfails =>
    obtain ⟨x, hx, hfailed⟩ := hfails
    exact absurd (hanswered x hx) hfailed
  | full hcalls _ hfull =>
    subst hfull
    have hid : { d.reverted with updatedAt := u.now }.id = id := hown
    rw [settle_of_commit u .cancel (Deployment.reverted_ne hactive)
      (Store.commit_of_read hmidway hid)] at htick
    refine ⟨hcalls, ?_⟩
    rw [hdrive, htick]
    exact Store.deployment_overwrite _ _ _

/-! ## A cancel that removes nothing -/

/-- From now on every removal fails. -/
def outage : Interference.Log :=
  ⟨[], [⟨some .remove, 0, none, [], some (.unavailable "timeout"), none, false⟩]⟩

/-- A local scheduler that is subject to rules. -/
def localScheduler : Scheduler (Store × Interference.Log) :=
  (LocalScheduler.mk true 0).scheduler.interfered

/-- A cancel of the small rollout that removes nothing starts the three stable instances, of which
there were none, and fails. -/
theorem tick_half_cancel {store : Store} (hnone : store.instances = .empty)
    (hread : store.deployment id = .ok d) (hactive : d.phase.isTerminal = false)
    (hterms : d.terms = (Deployment.begin .canaryOfOne 0).terms) :
    (midway ⟨.fixed 1, 5⟩ localScheduler id .cancel (store, outage)).1 =
        LocalScheduler.grow ⟨true, 0⟩ store "shop" "1" [] 3 ∧
      (midway ⟨.fixed 1, 5⟩ localScheduler id .cancel (store, outage)).1.deployment id = .ok d ∧
      (tick ⟨.fixed 1, 5⟩ localScheduler id .cancel (store, outage)).1 =
        .failed (.scheduler (.unavailable "timeout")) none ∧
      (tick ⟨.fixed 1, 5⟩ localScheduler id .cancel (store, outage)).2.1 =
        (LocalScheduler.grow ⟨true, 0⟩ store "shop" "1" [] 3).overwrite id
          (withFailure ⟨.fixed 1, 5⟩ .cancel (.scheduler (.unavailable "timeout"))
            d).nextRevision := by
  have happ : d.appId = "shop" := congrArg Terms.appId hterms
  have hprevious : d.previousVersion = "1" := congrArg Terms.previousVersion hterms
  have horiginal : d.originalInstances = 3 := congrArg Terms.originalInstances hterms
  generalize hrestored : LocalScheduler.grow ⟨true, 0⟩ store "shop" "1" [] 3 = restored
  have hrestores : localScheduler (.setCount d.appId d.previousVersion d.originalInstances)
      (store, outage) = (.ok (), restored, ⟨[.setCount "shop" "1" 3], outage.rules⟩) := by
    obtain ⟨deployments, instances⟩ := store
    obtain rfl : instances = .empty := hnone
    rw [happ, hprevious, horiginal, ← hrestored]
    rfl
  have hremoves : localScheduler (.remove d.appId d.version)
      (restored, ⟨[.setCount "shop" "1" 3], outage.rules⟩) =
        (.error (.unavailable "timeout"), restored,
          ⟨[.remove d.appId d.version, .setCount "shop" "1" 3], outage.rules⟩) := rfl
  have hrun := run_half_cancel ⟨.fixed 1, 5⟩ hactive hrestores hremoves
  have hstored : restored.deployment id = .ok d := by
    rw [← hrestored]
    exact hread
  have hread : (store, outage).1.deployment id = .ok d := hread
  have htick := tick_of_read ⟨.fixed 1, 5⟩ localScheduler .cancel hread
  rw [midway_of_read _ _ _ hread, hrun] at htick ⊢
  have hsettle : settle ⟨.fixed 1, 5⟩ restored id .cancel d
      (d, .error (.scheduler (.unavailable "timeout"))) =
      recordFailure ⟨.fixed 1, 5⟩ restored id .cancel (.scheduler (.unavailable "timeout")) := rfl
  rw [hsettle, recordFailure_of_ok _ _ hstored (by simp)] at htick
  rw [htick]
  exact ⟨rfl, hstored, rfl, rfl⟩

/-! ## The record after a failed cancel -/

/-- If the cancel of an active rollout fails, at a call or at its commit, and there is then a
record of an active rollout, the failure is written on it. Unless it is paused, it is left to be
canceled, and every later pass resumes the cancel from the first of its calls. A paused one stays
paused, and a pass leaves it alone. -/
theorem cancel_kept {e : TickError} {unsaved : Option StoreError}
    (hread : w.1.deployment id = .ok before) (hbefore : before.phase.isTerminal = false)
    (hfailed : (u.tick scheduler id .cancel w).1 = .failed e unsaved)
    (hstored : (u.midway scheduler id .cancel w).1.deployment id = .ok stored)
    (hown : stored.id = id) (hactive : stored.phase.isTerminal = false) :
    (u.tickTrace scheduler id .cancel w).map Exchange.call <+: before.cancelCalls ∧
    unsaved = none ∧
    ∃ marked, (u.tick scheduler id .cancel w).2.1.deployment id = .ok marked ∧
      FailureMark u .cancel e stored marked ∧
      (stored.phase ≠ .paused →
        marked.phase = .canceling ∧ marked.command? = some .cancel ∧
        ∀ (later : Updater) (scheduler' : Scheduler (Store × Rest)) (w' : Store × Rest),
          w'.1.deployment id = .ok marked → later.Resumes scheduler' id marked w') ∧
      (stored.phase = .paused → marked.phase = .paused ∧ marked.command? = none) := by
  obtain ⟨hcause, htick⟩ := tick_of_failed_cancel hread hbefore hfailed
  have hfound : ∀ missing, e ≠ .notFound missing := by
    rcases hcause with ⟨failure, rfl⟩ | ⟨failure, rfl⟩ <;> simp
  have haccepted : e.isRefusal = false := by
    rcases hcause with ⟨failure, rfl⟩ | ⟨failure, rfl⟩ <;> rfl
  rw [recordFailure_of_ok u .cancel hstored hfound] at htick
  have hmark := u.failureMark .cancel e stored
  generalize (u.withFailure .cancel e stored).nextRevision = marked at htick hmark
  refine ⟨calls_of_cancel hread hbefore, ?_, marked, ?_, hmark, fun hrunning => ?_,
    fun hpaused => ?_⟩
  · rw [htick] at hfailed
    exact (TickReport.failed.inj hfailed).2.symm
  · rw [htick]
    exact Store.deployment_overwrite _ _ _
  · have hphase := hmark.canceling haccepted hactive hrunning
    have hcommand : marked.command? = some .cancel := by
      rw [Deployment.command?, hphase]
    have hid : marked.id = stored.id := (congrArg Deployment.id hmark.others).symm
    exact ⟨hphase, hcommand, fun later scheduler' _ hread' =>
      later.resumes scheduler' (hid.trans hown) hphase hread'⟩
  · have hkept : stored.phase ≠ .deploying ∧ stored.phase ≠ .failed := by simp [hpaused]
    have hphase : marked.phase = .paused := (hmark.kept (Or.inr hkept)).1.trans hpaused
    refine ⟨hphase, ?_⟩
    rw [Deployment.command?, hphase]

/-- A cancel that has removed nothing is resumed. -/
theorem cancel_kept_half_done :
    let d := Deployment.begin .canaryOfOne 0
    let w : Store × Interference.Log := (Store.empty.write d, outage)
    let after := tick ⟨.fixed 1, 5⟩ localScheduler d.id .cancel w
    ∃ marked, after.2.1.deployment d.id = .ok marked ∧ marked.phase = .canceling ∧
      marked.command? = some .cancel ∧
      Resumes ⟨.fixed 1, 6⟩ localScheduler d.id marked after.2 := by
  intro d w
  have hactive : d.phase.isTerminal = false := rfl
  have hnone : w.1.instances = .empty := rfl
  have hread : w.1.deployment d.id = .ok d := (Store.empty.holds_write d).deployment
  have hrules : w.2 = outage := rfl
  -- The store is left open from here on, so that the check does not read its texts.
  clear_value w
  obtain ⟨store, log⟩ := w
  obtain rfl : log = outage := hrules
  intro after
  obtain ⟨-, hstored, hfailed, -⟩ := tick_half_cancel hnone hread hactive rfl
  obtain ⟨-, -, marked, hmarked, -, hresumed, -⟩ :=
    cancel_kept hread hactive hfailed hstored rfl hactive
  obtain ⟨hphase, hcommand, hresumes⟩ := hresumed (by decide)
  exact ⟨marked, hmarked, hphase, hcommand, hresumes _ _ _ hmarked⟩

/-- The same with the canary converged: the stable instances are there again, but the record is
paused, and no pass will remove the new ones. -/
theorem paused_cancel_forgotten :
    let d := { Deployment.begin .canaryOfOne 0 with
      canary := some ⟨1, 1⟩
      deployingInstances := 1
      stableInstances := 1
      lastHealthyAt := some 4
      revision := 3
      updatedAt := 4 }.setPhase .paused
    let w : Store × Interference.Log := (Store.empty.write d, outage)
    let after := tick ⟨.fixed 1, 5⟩ localScheduler d.id .cancel w
    d.phase.isTerminal = false ∧
      after.1 = .failed (.scheduler (.unavailable "timeout")) none ∧
      after.2.1.instances ≠ w.1.instances ∧
      ∃ marked, after.2.1.deployment d.id = .ok marked ∧ marked.phase ≠ .canceling ∧
        marked.command? ≠ some .cancel := by
  intro d w
  have hactive : d.phase.isTerminal = false := rfl
  have hnone : w.1.instances = .empty := rfl
  have hread : w.1.deployment d.id = .ok d := (Store.empty.holds_write d).deployment
  have hrules : w.2 = outage := rfl
  clear_value w
  obtain ⟨store, log⟩ := w
  obtain rfl : log = outage := hrules
  intro after
  obtain ⟨-, -, hfailed, hafter⟩ := tick_half_cancel hnone hread hactive rfl
  have hmarked := (LocalScheduler.grow ⟨true, 0⟩ store "shop" "1" [] 3).deployment_overwrite d.id
    (withFailure ⟨.fixed 1, 5⟩ .cancel (.scheduler (.unavailable "timeout")) d).nextRevision
  rw [← hafter] at hmarked
  refine ⟨hactive, hfailed, ?_, _, hmarked, ?_, ?_⟩
  · obtain ⟨deployments, instances⟩ := store
    obtain rfl : instances = .empty := hnone
    rw [hafter]
    exact Table.insert_ne_empty _ _ _
  · decide
  · decide

end Updater

end Rollout
