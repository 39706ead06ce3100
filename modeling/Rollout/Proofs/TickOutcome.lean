import Rollout.Proofs.Interleaving
import Rollout.Scheduler.Interference

/-!
# What a tick leaves behind

A tick writes the record at most once, after its last call: its copy if everything has gone well
and nobody has written in between, or its failure on the record as it then stands. Nothing is
assumed of the scheduler. Its calls may fail, and may change or delete the record themselves.
-/

namespace Rollout

/-! ## The store, whoever has written it -/

namespace Store

variable {store : Store} {id : String} {d stored : Deployment}

/-- A store with a text under an id, whatever id the record names. -/
def overwrite (store : Store) (id : String) (d : Deployment) : Store :=
  { store with deployments := store.deployments.insert id d.toText }

/-- What has been written under an id is read from there. -/
theorem deployment_overwrite (store : Store) (id : String) (d : Deployment) :
    (store.overwrite id d).deployment id = .ok d := by
  have htext : (store.overwrite id d).deployments.get? id = some d.toText :=
    (Table.get?_insert ..).trans (if_pos rfl)
  simp only [deployment, deployment?, htext, readDeployment, Deployment.ofText?_toText, Except.map]

/-- A commit fails, or it replaces a record that has the expected revision. -/
theorem commit_cases (store : Store) (h : d.id = id) (expected : UInt64) :
    (∃ e, store.commit d expected = .error e) ∨
    ∃ stored, store.deployment id = .ok stored ∧ stored.revision = expected ∧
      store.commit d expected = .ok ({ d with revision := expected + 1 },
        store.overwrite id { d with revision := expected + 1 }) := by
  unfold commit
  rw [h]
  cases hstored : store.deployment id with
  | error e => exact Or.inl ⟨e, rfl⟩
  | ok stored =>
    by_cases hrevision : stored.revision = expected
    · right
      refine ⟨stored, rfl, hrevision, ?_⟩
      simp only [hrevision, ne_eq, not_true_eq_false, if_false]
      rfl
    · left
      simp only [ne_eq, hrevision, not_false_eq_true, if_true]
      exact ⟨_, rfl⟩

end Store

/-! ## Records -/

/-- What the copy that a tick works on has in common with the record that it was made from. -/
structure Draft (d copy : Deployment) : Prop where
  /-- It has the same terms. -/
  terms : copy.terms = d.terms
  /-- Its gate, if it has one, has the same total. -/
  total : copy.canary.map Canary.totalInstances = d.canary.map Canary.totalInstances
  /-- It was created at the same time. -/
  createdAt : copy.createdAt = d.createdAt
  /-- It shows the same error. -/
  error : copy.error = d.error

/-- A record on which the failure of a tick has been written. -/
structure FailureMark (u : Updater) (command : Command) (e : TickError) (d marked : Deployment) :
    Prop where
  /-- It shows what is written of the failure. -/
  error : marked.error = some e.persisted
  /-- It has the time of the tick. -/
  updatedAt : marked.updatedAt = u.now
  /-- It has the next revision. -/
  revision : marked.revision = d.revision + 1
  /-- A failure other than a refusal puts a rollout in progress into the phase of the failure. -/
  moved : e.isRefusal = false → d.phase = .deploying ∨ d.phase = .failed →
    marked.phase = command.failurePhase ∧
      marked.statusValue = command.failurePhase.statusValue ∧
      marked.statusReason = command.failurePhase.statusReason
  /-- A refusal keeps the phase, and so does a failure in any other phase. -/
  kept : e.isRefusal = true ∨ d.phase ≠ .deploying ∧ d.phase ≠ .failed →
    marked.phase = d.phase ∧ marked.statusValue = d.statusValue ∧
      marked.statusReason = d.statusReason
  /-- All other fields are as they were. -/
  others : d = { marked with
    error := d.error
    updatedAt := d.updatedAt
    revision := d.revision
    phase := d.phase
    statusValue := d.statusValue
    statusReason := d.statusReason }

private theorem Draft.refl (d : Deployment) : Draft d d :=
  ⟨rfl, rfl, rfl, rfl⟩

/-- A draft of a draft is a draft. -/
theorem Draft.trans {d d' d'' : Deployment} (h : Draft d d') (h' : Draft d' d'') : Draft d d'' :=
  ⟨h'.terms.trans h.terms, h'.total.trans h.total, h'.createdAt.trans h.createdAt,
    h'.error.trans h.error⟩

section

variable {World : Type} {u : Updater} {d : Deployment} {trace : List (Exchange World)}

/-- A scale step leaves a draft. -/
theorem ScaleCourse.draft {policy : StepPolicy} {goal : ScaleGoal} {phase : Phase}
    {outcome : Outcome ScaleStep} (h : ScaleCourse policy goal (d.setPhase phase) trace outcome) :
    Draft d outcome.1 := by
  obtain ⟨deploying, stable, heq⟩ := h.exists_eq
  rw [heq]
  exact ⟨rfl, rfl, rfl, rfl⟩

/-- What a canary tick does after its step leaves a draft. -/
theorem Updater.draft_afterCanaryStep (u : Updater) (c : Canary) (step : ScaleStep)
    (d : Deployment) : Draft d (u.afterCanaryStep c step d) := by
  unfold afterCanaryStep
  split
  · exact ⟨rfl, rfl, rfl, rfl⟩
  · split
    · refine ⟨rfl, ?_, rfl, rfl⟩
      dsimp only
      rw [Option.map_map]
      rfl
    · exact .refl d

/-- Every tick leaves a draft of the record that it has read. -/
theorem TickCourse.draft {command : Command} {outcome : Outcome Unit}
    (h : TickCourse u d command trace outcome) : Draft d outcome.1 := by
  cases h with
  | scaleFailed _ hstep | scaled _ hstep | unfinalized _ hstep | canaryFailed _ _ hstep =>
    exact hstep.draft
  | finalized _ hstep => exact hstep.draft.trans ⟨rfl, rfl, rfl, rfl⟩
  | canaried _ _ hstep => exact hstep.draft.trans (u.draft_afterCanaryStep _ _ _)
  | _ => exact ⟨rfl, rfl, rfl, rfl⟩

/-- What is written of a failure is a mark of it. -/
theorem Updater.failureMark (u : Updater) (command : Command) (e : TickError) (d : Deployment) :
    FailureMark u command e d (u.withFailure command e d).nextRevision := by
  rw [withFailure_eq]
  by_cases h : (!e.isRefusal && d.phase.isInProgress) = true
  · obtain ⟨hrefusal, hphase⟩ := Bool.and_eq_true_iff.mp h
    rw [if_pos h]
    refine ⟨rfl, rfl, rfl, fun _ _ => ⟨rfl, rfl, rfl⟩, fun hkept => ?_, rfl⟩
    exfalso
    rcases hkept with hkept | ⟨hdeploying, hfailed⟩
    · simp [hkept] at hrefusal
    · cases hd : d.phase <;> simp_all [Phase.isInProgress]
  · rw [if_neg h]
    refine ⟨rfl, rfl, rfl, fun hrefusal hphase => ?_, fun _ => ⟨rfl, rfl, rfl⟩, rfl⟩
    exfalso
    rcases hphase with hphase | hphase <;> simp [hrefusal, hphase, Phase.isInProgress] at h

end

/-! ## Endings -/

namespace Updater

variable {Rest : Type} (u : Updater) (scheduler : Scheduler (Store × Rest)) (id : String)
  (command : Command) (w : Store × Rest)

/-- The world when a tick has made its calls and has not yet written anything. -/
def midway : Store × Rest :=
  match read w.1 id with
  | .error _ => w
  | .ok before => ((u.action command before).run scheduler w).2

/-- Why a tick fails: it cannot read the record, its action fails, or its commit. -/
inductive FailsWith : TickError → Prop where
  | read {e : TickError} (hread : read w.1 id = .error e) : FailsWith e
  | action {before copy : Deployment} {e : TickError} (hread : w.1.deployment id = .ok before)
    (hrun : ((u.action command before).run scheduler w).1 = (copy, .error e)) : FailsWith e
  | commit {before copy : Deployment} {e : StoreError} (hread : w.1.deployment id = .ok before)
    (hrun : ((u.action command before).run scheduler w).1 = (copy, .ok ()))
    (hcommit : (u.midway scheduler id command w).1.commit { copy with updatedAt := u.now }
      before.revision = .error e) : FailsWith (.store e)

/-- The tick has written nothing, for it had nothing to change, or it has failed and there is no
record to write the failure on. -/
inductive Rests : Prop where
  | unchanged {before : Deployment} (hread : w.1.deployment id = .ok before)
    (hrun : ((u.action command before).run scheduler w).1 = (before, .ok ()))
    (hreport : (u.tick scheduler id command w).1 = .unchanged before)
    (hstore : (u.tick scheduler id command w).2.1 = (u.midway scheduler id command w).1) : Rests
  | unsaved {e : TickError} {unsaved : Option StoreError}
    (hfails : u.FailsWith scheduler id command w e)
    (hnone : ∀ d, (u.midway scheduler id command w).1.deployment id ≠ .ok d)
    (hreport : (u.tick scheduler id command w).1 = .failed e unsaved)
    (hstore : (u.tick scheduler id command w).2.1 = (u.midway scheduler id command w).1) : Rests

/-- The tick has succeeded and has written its copy, over a record that still had the revision
that was read. -/
inductive Commits : Prop where
  | intro {before copy stored written : Deployment} (hread : w.1.deployment id = .ok before)
    (hrun : ((u.action command before).run scheduler w).1 = (copy, .ok ()))
    (hstored : (u.midway scheduler id command w).1.deployment id = .ok stored)
    (hrevision : stored.revision = before.revision)
    (hwritten : written = { copy with updatedAt := u.now, revision := before.revision + 1 })
    (hdraft : Draft before written)
    (hreport : (u.tick scheduler id command w).1 = .committed written)
    (hafter : (u.tick scheduler id command w).2.1.deployment id = .ok written)
    (hstore : (u.tick scheduler id command w).2.1 =
      (u.midway scheduler id command w).1.overwrite id written) : Commits

/-- The tick has failed and has written the failure on the record as it then stood. -/
inductive MarksFailure : Prop where
  | intro {e : TickError} {stored marked : Deployment}
    (hfails : u.FailsWith scheduler id command w e)
    (hstored : (u.midway scheduler id command w).1.deployment id = .ok stored)
    (hmark : FailureMark u command e stored marked)
    (hreport : (u.tick scheduler id command w).1 = .failed e none)
    (hafter : (u.tick scheduler id command w).2.1.deployment id = .ok marked)
    (hstore : (u.tick scheduler id command w).2.1 =
      (u.midway scheduler id command w).1.overwrite id marked) : MarksFailure

variable {u scheduler id command w}

private theorem Rests.store_eq (h : u.Rests scheduler id command w) :
    (u.tick scheduler id command w).2.1 = (u.midway scheduler id command w).1 := by
  cases h with
  | unchanged _ _ _ hstore | unsaved _ _ _ hstore => exact hstore

/-- A store whose record has the next revision is another store. -/
theorem ne_of_revision {store after : Store} {stored written : Deployment}
    (hstored : store.deployment id = .ok stored) (hafter : after.deployment id = .ok written)
    (hrevision : written.revision = stored.revision + 1) : after ≠ store := by
  rintro rfl
  obtain rfl := Except.ok.inj (hstored.symm.trans hafter)
  simp at hrevision

/-- A commit is seen in the store, for it has the next revision. -/
theorem Commits.store_ne (h : u.Commits scheduler id command w) :
    (u.tick scheduler id command w).2.1 ≠ (u.midway scheduler id command w).1 := by
  obtain ⟨hread, hrun, hstored, hrevision, hwritten, hdraft, hreport, hafter, hstore⟩ := h
  refine ne_of_revision hstored hafter ?_
  rw [hwritten, hrevision]

/-- A failure mark is seen in the store, for it has the next revision. -/
theorem MarksFailure.store_ne (h : u.MarksFailure scheduler id command w) :
    (u.tick scheduler id command w).2.1 ≠ (u.midway scheduler id command w).1 := by
  obtain ⟨hfails, hstored, hmark, hreport, hafter, hstore⟩ := h
  exact ne_of_revision hstored hafter hmark.revision

/-- No tick both commits and marks a failure. -/
theorem Commits.not_marksFailure (h : u.Commits scheduler id command w) :
    ¬u.MarksFailure scheduler id command w := by
  intro h'
  obtain ⟨-, -, -, -, -, -, hcommitted, -, -⟩ := h
  obtain ⟨-, -, -, hfailed, -, -⟩ := h'
  rw [hcommitted] at hfailed
  cases hfailed

/-! ## The end of a tick -/

/-- A tick reads a record exactly if the store has it. -/
theorem read_eq_ok_iff {store : Store} {d : Deployment} :
    read store id = .ok d ↔ store.deployment id = .ok d := by
  unfold read Store.deployment
  rcases store.deployment? id with e | _ | d <;> simp

private theorem deployment_ne_of_read {store : Store} {e : TickError} (h : read store id = .error e)
    (d : Deployment) : store.deployment id ≠ .ok d := by
  intro hd
  rw [read_eq_ok_iff.mpr hd] at h
  cases h

section

variable (u : Updater) (scheduler : Scheduler (Store × Rest)) (command : Command)

/-- A tick that cannot read its record makes no call. -/
theorem midway_of_error {e : TickError} (hread : read w.1 id = .error e) :
    u.midway scheduler id command w = w := by
  rw [midway, hread]

/-- A tick that has read its record carries its action out. -/
theorem midway_of_read {before : Deployment} (hread : w.1.deployment id = .ok before) :
    u.midway scheduler id command w = ((u.action command before).run scheduler w).2 := by
  rw [midway, read_eq_ok_iff.mpr hread]

/-- The exchanges of a tick that has read its record are those of its action. -/
theorem tickTrace_of_read {before : Deployment} (hread : w.1.deployment id = .ok before) :
    u.tickTrace scheduler id command w = (u.action command before).trace scheduler w := by
  rw [tickTrace, read_eq_ok_iff.mpr hread]

/-- A tick that cannot read its record does no more than record that. -/
theorem tick_of_error {e : TickError} (hread : read w.1 id = .error e) :
    u.tick scheduler id command w =
      ((u.recordFailure w.1 id command e).1, (u.recordFailure w.1 id command e).2, w.2) := by
  rw [tick, hread]

/-- A tick that has read its record saves what its action has come to. -/
theorem tick_of_read {before : Deployment} (hread : w.1.deployment id = .ok before) :
    u.tick scheduler id command w =
      ((u.settle (u.midway scheduler id command w).1 id command before
          ((u.action command before).run scheduler w).1).1,
        (u.settle (u.midway scheduler id command w).1 id command before
          ((u.action command before).run scheduler w).1).2,
        (u.midway scheduler id command w).2) := by
  rw [tick, read_eq_ok_iff.mpr hread, midway_of_read u scheduler command hread]

/-- The calls of a tick are made one after another from the world that it begins with. -/
theorem makes_midway (id : String) (w : Store × Rest) :
    scheduler.Makes w (u.tickTrace scheduler id command w) (u.midway scheduler id command w) := by
  unfold tickTrace midway
  cases read w.1 id with
  | error e => exact .nil w
  | ok before => exact scheduler.makes_trace _ w

private theorem tick_rest (id : String) (w : Store × Rest) :
    (u.tick scheduler id command w).2.2 = (u.midway scheduler id command w).2 := by
  cases hread : read w.1 id with
  | error e =>
    rw [tick_of_error u scheduler command hread, midway_of_error u scheduler command hread]
  | ok before => rw [tick_of_read u scheduler command (read_eq_ok_iff.mp hread)]

/-- Without a record the failure is lost, and nothing is written. -/
theorem recordFailure_of_error {store : Store} (hnone : ∀ d, store.deployment id ≠ .ok d)
    (e : TickError) :
    ∃ unsaved, u.recordFailure store id command e = (.failed e unsaved, store) := by
  unfold recordFailure Store.update
  split
  · exact ⟨none, rfl⟩
  · cases hstored : store.deployment id with
    | error e' => exact ⟨some e', rfl⟩
    | ok d => exact absurd hstored (hnone d)

/-- A failure is recorded on the stored record, if there is one. -/
theorem recordFailure_of_ok {store : Store} {d : Deployment} (hstored : store.deployment id = .ok d)
    {e : TickError} (he : ∀ missing, e ≠ .notFound missing) :
    u.recordFailure store id command e =
      (.failed e none, store.overwrite id (u.withFailure command e d).nextRevision) := by
  unfold recordFailure Store.update
  split
  · next missing => exact absurd rfl (he missing)
  · rw [hstored]
    rfl

/-- A changed copy is written if its commit goes through. -/
theorem settle_of_commit {store after : Store} {before copy written : Deployment}
    (hchanged : copy ≠ before)
    (hcommit : store.commit { copy with updatedAt := u.now } before.revision =
      .ok (written, after)) :
    u.settle store id command before (copy, .ok ()) = (.committed written, after) := by
  simp only [settle, if_neg hchanged, hcommit]

/-- If its commit is refused, that is recorded as the failure of the tick. -/
theorem settle_of_conflict {store : Store} {before copy : Deployment} {e : StoreError}
    (hchanged : copy ≠ before)
    (hcommit : store.commit { copy with updatedAt := u.now } before.revision = .error e) :
    u.settle store id command before (copy, .ok ()) =
      u.recordFailure store id command (.store e) := by
  simp only [settle, if_neg hchanged, hcommit]

end

/-- A tick that fails writes its failure on the record, if there is one to write it on. -/
theorem ending_of_failure {e : TickError} (hfails : u.FailsWith scheduler id command w e)
    (he : ∀ d, (u.midway scheduler id command w).1.deployment id = .ok d →
      ∀ missing, e ≠ .notFound missing)
    (htick : u.tick scheduler id command w =
      ((u.recordFailure (u.midway scheduler id command w).1 id command e).1,
        (u.recordFailure (u.midway scheduler id command w).1 id command e).2,
        (u.midway scheduler id command w).2)) :
    u.Rests scheduler id command w ∨ u.MarksFailure scheduler id command w := by
  by_cases hstored : ∃ d, (u.midway scheduler id command w).1.deployment id = .ok d
  · obtain ⟨d, hd⟩ := hstored
    rw [recordFailure_of_ok u command hd (he d hd)] at htick
    right
    refine .intro hfails hd (u.failureMark command e d) ?_ ?_ ?_
    · rw [htick]
    · rw [htick]
      exact Store.deployment_overwrite _ _ _
    · rw [htick]
  · have hnone (d : Deployment) : (u.midway scheduler id command w).1.deployment id ≠ .ok d :=
      fun hd => hstored ⟨d, hd⟩
    obtain ⟨unsaved, hunsaved⟩ := recordFailure_of_error u command hnone e
    rw [hunsaved] at htick
    left
    exact .unsaved hfails hnone (by rw [htick]) (by rw [htick])

/-- A tick that has carried out its action well writes its copy, unless it is the record that was
read, or its commit fails. -/
theorem ending_of_success {before copy : Deployment} (hown : before.id = id)
    (hread : w.1.deployment id = .ok before)
    (hrun : ((u.action command before).run scheduler w).1 = (copy, .ok ())) :
    u.Rests scheduler id command w ∨ u.Commits scheduler id command w ∨
      u.MarksFailure scheduler id command w := by
  have htick := tick_of_read u scheduler command hread
  have hdraft := (tickCourse_of_runs ((u.action command before).runs_trace scheduler w)).draft
  rw [hrun] at htick hdraft
  by_cases hsame : copy = before
  · subst hsame
    have hsettle (store : Store) :
        u.settle store id command copy (copy, .ok ()) = (.unchanged copy, store) := if_pos rfl
    rw [hsettle] at htick
    exact Or.inl (.unchanged hread hrun (by rw [htick]) (by rw [htick]))
  · have hid : { copy with updatedAt := u.now }.id = id :=
      (congrArg Terms.id hdraft.terms).trans hown
    rcases (u.midway scheduler id command w).1.commit_cases hid before.revision with
      ⟨e, hcommit⟩ | ⟨stored, hstored, hrevision, hcommit⟩
    · rw [settle_of_conflict u command hsame hcommit] at htick
      rcases ending_of_failure (.commit hread hrun hcommit) (by simp) htick with hrests | hmarks
      · exact Or.inl hrests
      · exact Or.inr (Or.inr hmarks)
    · rw [settle_of_commit u command hsame hcommit] at htick
      right
      left
      have hwritten : Draft before { copy with
          updatedAt := u.now
          revision := before.revision + 1 } := hdraft.trans ⟨rfl, rfl, rfl, rfl⟩
      refine .intro hread hrun hstored hrevision rfl hwritten ?_ ?_ ?_
      · rw [htick]
      · rw [htick]
        exact Store.deployment_overwrite _ _ _
      · rw [htick]

/-- Every tick has one of the three endings. -/
theorem ending (hown : ∀ d, w.1.deployment id = .ok d → d.id = id) :
    u.Rests scheduler id command w ∨ u.Commits scheduler id command w ∨
      u.MarksFailure scheduler id command w := by
  cases hread : read w.1 id with
  | error e =>
    have hfailed : u.Rests scheduler id command w ∨ u.MarksFailure scheduler id command w := by
      refine ending_of_failure (.read hread) ?_ ?_
      · rw [midway_of_error u scheduler command hread]
        exact fun d hd => absurd hd (deployment_ne_of_read hread d)
      · rw [midway_of_error u scheduler command hread]
        exact tick_of_error u scheduler command hread
    exact hfailed.imp_right Or.inr
  | ok before =>
    have hread := read_eq_ok_iff.mp hread
    have hruns := (u.action command before).runs_trace scheduler w
    cases hrun : ((u.action command before).run scheduler w).1 with
    | mk copy result =>
      cases result with
      | ok => exact ending_of_success (hown before hread) hread hrun
      | error e =>
        rw [hrun] at hruns
        have htick := tick_of_read u scheduler command hread
        rw [hrun] at htick
        have hfailed := ending_of_failure (.action hread hrun)
          (fun _ _ => (tickCourse_of_runs hruns).ne_notFound) htick
        exact hfailed.imp_right Or.inr

/-- A tick writes at most once, after its calls, and has exactly one of the three endings. -/
structure Atomic (u : Updater) (scheduler : Scheduler (Store × Rest)) (id : String)
    (command : Command) (w : Store × Rest) : Prop where
  /-- The scheduler makes the calls of the tick before anything is written. -/
  calls : scheduler.Makes w (u.tickTrace scheduler id command w) (u.midway scheduler id command w)
  /-- What is beside the store is as the calls have left it. -/
  rest : (u.tick scheduler id command w).2.2 = (u.midway scheduler id command w).2
  /-- The tick has one of the three endings. -/
  ending : u.Rests scheduler id command w ∨ u.Commits scheduler id command w ∨
    u.MarksFailure scheduler id command w
  /-- In the first nothing is written. -/
  rests : u.Rests scheduler id command w →
    (u.tick scheduler id command w).2.1 = (u.midway scheduler id command w).1
  /-- In the second the copy is seen in the store. -/
  commits : u.Commits scheduler id command w →
    (u.tick scheduler id command w).2.1 ≠ (u.midway scheduler id command w).1
  /-- In the third the failure is seen there. -/
  marks : u.MarksFailure scheduler id command w →
    (u.tick scheduler id command w).2.1 ≠ (u.midway scheduler id command w).1
  /-- No tick does both. -/
  apart : ¬(u.Commits scheduler id command w ∧ u.MarksFailure scheduler id command w)

/-- Whatever the scheduler answers, and whatever its calls do to the record, a tick either writes
nothing, or its copy over the revision that it has read, or only its failure on the record that it
then finds. -/
theorem tick_atomic (u : Updater) (scheduler : Scheduler (Store × Rest)) {id : String}
    (command : Command) {w : Store × Rest}
    (hown : ∀ d, w.1.deployment id = .ok d → d.id = id) : u.Atomic scheduler id command w where
  calls := u.makes_midway scheduler command id w
  rest := u.tick_rest scheduler command id w
  ending := ending hown
  rests := Rests.store_eq
  commits := Commits.store_ne
  marks := MarksFailure.store_ne
  apart h := h.1.not_marksFailure h.2

/-- The first call of a tick is refused, after an operator has asked for the rollout to be
canceled. The failure is written on the record that is to be canceled. -/
theorem tick_atomic_refused :
    let d₀ := Deployment.begin ⟨"shop-2", "shop", "2", "1", 3, 2, none⟩ 0
    let rule : Interference.Rule :=
      ⟨some .query, 0, none, [(.cancel, d₀.id)], some (.rejected "no room"), none, false⟩
    let scheduler := (LocalScheduler.mk true 0).scheduler.interfered
    let w : Store × Interference.Log := (Store.empty.write d₀, ⟨[], [rule]⟩)
    (∀ d, w.1.deployment d₀.id = .ok d → d.id = d₀.id) ∧
      Atomic ⟨.fixed 1, 5⟩ scheduler d₀.id .scale w ∧
      MarksFailure ⟨.fixed 1, 5⟩ scheduler d₀.id .scale w := by
  intro d₀ rule scheduler w
  have hholds : w.1.Holds d₀.id d₀ := Store.empty.holds_write d₀
  have hheld := hholds.deployment
  have hown : ∀ d, w.1.deployment d₀.id = .ok d → d.id = d₀.id := by
    intro d hd
    rw [← Except.ok.inj (hheld.symm.trans hd)]
  have hatomic := tick_atomic ⟨.fixed 1, 5⟩ scheduler .scale hown
  refine ⟨hown, hatomic, ?_⟩
  -- The store is left open here, so that the check does not read its texts.
  have hrefused (store : Store) :
      (action ⟨.fixed 1, 5⟩ .scale d₀).run scheduler (store, ⟨[], [rule]⟩) =
        ((d₀, .error (.scheduler (.rejected "no room"))),
          (Operator.requestCancel store d₀.id).2, ⟨[.query "shop" "2"], [rule]⟩) := rfl
  have hrun := hrefused w.1
  have hcanceled : (midway ⟨.fixed 1, 5⟩ scheduler d₀.id .scale w).1.deployment d₀.id =
      .ok (Operator.canceled d₀) := by
    rw [midway_of_read _ _ _ hheld, hrun, Operator.requestCancel_eq_write hholds]
    exact (w.1.holds_write_of_id (Operator.id_canceled d₀)).deployment
  rcases hatomic.ending with hrests | hcommits | hmarks
  · cases hrests with
    | unchanged hread hcopy =>
      obtain rfl := Except.ok.inj (hheld.symm.trans hread)
      rw [hrun] at hcopy
      cases hcopy
    | unsaved _ hnone => exact absurd hcanceled (hnone _)
  · cases hcommits with
    | intro hread hcopy =>
      obtain rfl := Except.ok.inj (hheld.symm.trans hread)
      rw [hrun] at hcopy
      cases hcopy
  · exact hmarks

end Updater

end Rollout
