import Rollout.CommandLine.Operation
import Rollout.Proofs.TickOutcome

/-!
# What failed operations leave in the store

An operation on the store that fails should leave it as it was. Three do not. A cancel request
and a promotion that are refused still write the record with the next revision, and a deployment
whose stable instances cannot be read has been added by then.
-/

namespace Rollout

/-! ## Operator requests -/

namespace Operator

variable {ask : Deployment → Option Deployment} {refusal : String → Phase → OperatorError}
  {store : Store} {id : String} {d : Deployment} {e : OperatorError}

private theorem submit_of_error {e : StoreError} (hread : store.deployment id = .error e) :
    submit ask refusal store id = (.error (.store e), store) := by
  rw [submit, hread]

/-- A deployment that refuses is written as it is. -/
theorem submit_of_none (hread : store.deployment id = .ok d) (hask : ask d = none) :
    submit ask refusal store id =
      (.error (refusal id d.phase), store.overwrite id d.nextRevision) := by
  simp only [submit, Store.update, hread, hask, Option.getD_none, Option.isSome_none,
    Bool.false_eq_true, if_false]
  rfl

private theorem submit_of_some (refusal : String → Phase → OperatorError) {d' : Deployment}
    (hread : store.deployment id = .ok d) (hask : ask d = some d') :
    ∃ written, (submit ask refusal store id).1 = .ok written := by
  simp only [submit, Store.update, hread, hask, Option.getD_some, Option.isSome_some, if_true]
  exact ⟨_, rfl⟩

/-- A request fails because there is no record to be read, or because the record refuses. -/
theorem submit_failed (hfailed : (submit ask refusal store id).1 = .error e) :
    (submit ask refusal store id).2 = store ∨
      ∃ d, store.deployment id = .ok d ∧ ask d = none ∧
        (submit ask refusal store id).2 = store.overwrite id d.nextRevision := by
  cases hread : store.deployment id with
  | error e =>
    left
    rw [submit_of_error hread]
  | ok d =>
    cases hask : ask d with
    | none =>
      right
      refine ⟨d, rfl, hask, ?_⟩
      rw [submit_of_none hread hask]
    | some d' =>
      obtain ⟨written, hwritten⟩ := submit_of_some refusal hread hask
      rw [hwritten] at hfailed
      cases hfailed

end Operator

/-- A cancel request is refused exactly by what has ended. -/
theorem Deployment.requestCancel?_eq_none_iff {d : Deployment} :
    d.requestCancel? = none ↔ d.phase.isTerminal = true := by
  simp [requestCancel?]

/-- A promotion is refused exactly by what is not paused. -/
theorem Deployment.promote?_eq_none_iff {d : Deployment} :
    d.promote? = none ↔ d.phase ≠ .paused := by
  simp [promote?]

namespace Store

variable {store after : Store} {id other : String} {d : Deployment}

private theorem deployment_congr (h : after.deployments = store.deployments) (id : String) :
    after.deployment id = store.deployment id := by
  rw [deployment, deployment?, h]
  rfl

private theorem deployment_overwrite_of_ne (h : other ≠ id) :
    (store.overwrite id d).deployment other = store.deployment other := by
  have htext : (store.overwrite id d).deployments.get? other = store.deployments.get? other :=
    (Table.get?_insert ..).trans (if_neg h)
  rw [deployment, deployment?, htext]
  rfl

/-- A deployment is created under an id that is free. -/
theorem free_of_create (h : store.create d = .ok after) : store.deployments.get? d.id = none := by
  unfold create at h
  split at h
  · cases h
  · next hfree => exact hfree

/-- A record that can be read can also be read after another one has been committed. -/
theorem readable_of_commit {copy written : Deployment} {expected : UInt64}
    (hread : store.deployment id = .ok d)
    (hcommit : store.commit copy expected = .ok (written, after)) :
    ∃ d', after.deployment id = .ok d' := by
  rcases store.commit_cases rfl expected with ⟨e, herror⟩ | ⟨stored, -, -, hok⟩
  · rw [hcommit] at herror
    cases herror
  · rw [hok] at hcommit
    obtain ⟨-, rfl⟩ := Prod.mk.inj (Except.ok.inj hcommit)
    by_cases hid : id = copy.id
    · subst hid
      exact ⟨_, store.deployment_overwrite _ _⟩
    · exact ⟨d, (deployment_overwrite_of_ne hid).trans hread⟩

end Store

/-- A record with the next revision is another one. -/
theorem Store.overwrite_nextRevision_ne {store : Store} {id : String} {d : Deployment}
    (hread : store.deployment id = .ok d) : store.overwrite id d.nextRevision ≠ store :=
  Updater.ne_of_revision hread (store.deployment_overwrite id d.nextRevision) rfl

/-! ## The local scheduler -/

namespace LocalScheduler

variable {s : LocalScheduler} {store : Store}

private theorem deployments_foldl {α : Type} {f : Store → α → Store}
    (h : ∀ store a, (f store a).deployments = store.deployments) (list : List α) (store : Store) :
    (list.foldl f store).deployments = store.deployments := by
  induction list generalizing store with
  | nil => rfl
  | cons a list ih => exact (ih (f store a)).trans (h store a)

/-- When the instances of a version cannot be read, setting its count fails with that error. -/
theorem setCount_of_error {appId version : String} {e : StoreError}
    (h : store.instanceList appId version = .error e) (count : UInt32) :
    s.setCount store appId version count = .error e := by
  unfold setCount
  rw [h]
  rfl

/-- A count can be set when the instances that there are can be read, and then only the table of
instances changes. -/
theorem setCount_of_ok {appId version : String} {existing : List Instance}
    (h : store.instanceList appId version = .ok existing) (count : UInt32) :
    ∃ after, s.setCount store appId version count = .ok after ∧
      after.deployments = store.deployments := by
  unfold setCount grow shrink
  rw [h]
  by_cases hless : UInt32.ofNat existing.length < count
  · refine ⟨_, if_pos hless, ?_⟩
    apply deployments_foldl
    intro store i
    rfl
  · refine ⟨_, if_neg hless, ?_⟩
    apply deployments_foldl
    intro store i
    rfl

/-- The local scheduler works on the table of instances alone. -/
theorem deployments_scheduler (s : LocalScheduler) (c : Call) (store : Store) :
    (s.scheduler c store).2.deployments = store.deployments := by
  cases c with
  | query | remove => rfl
  | setCount appId version count =>
    cases hlist : store.instanceList appId version with
    | error e => simp only [scheduler, setCount_of_error hlist]
    | ok existing =>
      obtain ⟨after, hset, hafter⟩ := s.setCount_of_ok hlist count
      simp only [scheduler, hset, hafter]

end LocalScheduler

/-! ## Ticks -/

namespace Updater

variable {u : Updater} {s : LocalScheduler} {id : String} {command : Command}
  {w : Store × Unit} {d : Deployment}

/-- A tick whose calls are those of the local scheduler finds the deployments as they were when it
has made them. -/
theorem deployments_midway (u : Updater) (s : LocalScheduler) (id : String) (command : Command)
    (w : Store × Unit) :
    (u.midway s.scheduler.onFirst id command w).1.deployments = w.1.deployments := by
  have hstep (c : Call) (w' : Store × Unit) (_ : True)
      (hsame : w'.1.deployments = w.1.deployments) :
      (s.scheduler.onFirst c w').2.1.deployments = w.1.deployments :=
    (s.deployments_scheduler c w'.1).trans hsame
  exact ((u.makes_midway s.scheduler.onFirst command id w).keeps hstep
    (fun _ _ => trivial) rfl).2

/-- A tick that leaves its copy as it was writes nothing. -/
theorem settle_of_same (u : Updater) (store : Store) (id : String) (command : Command)
    (d : Deployment) : u.settle store id command d (d, .ok ()) = (.unchanged d, store) :=
  if_pos rfl

/-- After a tick of a record that can be read, there is one that can be read. -/
theorem readable_after_tick (hread : w.1.deployment id = .ok d) :
    ∃ d', (u.tick s.scheduler.onFirst id command w).2.1.deployment id = .ok d' := by
  have hmidway := (Store.deployment_congr (u.deployments_midway s id command w) id).trans hread
  have hfailed (e : TickError) (he : ∀ missing, e ≠ .notFound missing) :
      ∃ d', (u.recordFailure (u.midway s.scheduler.onFirst id command w).1
        id command e).2.deployment id = .ok d' := by
    rw [recordFailure_of_ok u command hmidway he]
    exact ⟨_, Store.deployment_overwrite _ _ _⟩
  have hcourse := tickCourse_of_runs ((u.action command d).runs_trace s.scheduler.onFirst w)
  rw [tick_of_read u s.scheduler.onFirst command hread]
  generalize ((u.action command d).run s.scheduler.onFirst w).1 = outcome at hcourse
  obtain ⟨copy, result⟩ := outcome
  cases result with
  | error e => exact hfailed e hcourse.ne_notFound
  | ok =>
    by_cases hsame : copy = d
    · rw [hsame, settle_of_same]
      exact ⟨d, hmidway⟩
    · cases hcommit : (u.midway s.scheduler.onFirst id command w).1.commit
          { copy with updatedAt := u.now } d.revision with
      | error e =>
        rw [settle_of_conflict u command hsame hcommit]
        exact hfailed (.store e) (by simp)
      | ok written =>
        rw [settle_of_commit u command hsame hcommit]
        exact Store.readable_of_commit hmidway hcommit

/-- A tick of what cannot be read leaves the store. -/
theorem store_of_unreadable_tick {e : StoreError} (hread : w.1.deployment id = .error e) :
    (u.tick s.scheduler.onFirst id command w).2.1 = w.1 := by
  have hnone (d : Deployment) : w.1.deployment id ≠ .ok d := by simp [hread]
  cases hfirst : read w.1 id with
  | ok d => exact absurd (read_eq_ok_iff.mp hfirst) (hnone d)
  | error e =>
    obtain ⟨unsaved, hunsaved⟩ := recordFailure_of_error u command hnone e
    rw [tick_of_error u s.scheduler.onFirst command hfirst, hunsaved]

end Updater

/-! ## Operations -/

namespace CommandLine.Operation

/-- What a failed operation leaves in a store when it does not leave the store as it was. -/
inductive Residue (store : Store) : Operation → Store → Prop where
  /-- A deployment in a terminal phase is written by a cancel request that it refuses. -/
  | canceled {id : String} {d : Deployment} {after : Store} (hread : store.deployment id = .ok d)
    (hphase : d.phase.isTerminal = true) (hafter : after = store.overwrite id d.nextRevision) :
    Residue store (.cancel id) after
  /-- A deployment that is not paused is written by a promotion that it refuses. -/
  | promoted {id : String} {d : Deployment} {after : Store} (hread : store.deployment id = .ok d)
    (hphase : d.phase ≠ .paused) (hafter : after = store.overwrite id d.nextRevision) :
    Residue store (.promote id) after
  /-- A deployment is added before the instances of its previous version are found unreadable. -/
  | created {d : Deployment} {after : Store} {e : StoreError} (hcreate : store.create d = .ok after)
    (hlist : store.instanceList d.appId d.previousVersion = .error e) :
    Residue store (.create d) after

variable {config : Config} {now : UInt64} {store : Store}

/-- The result of an operation is a failure. -/
def Fails (config : Config) (now : UInt64) (store : Store) (op : Operation) : Prop :=
  ∃ f, (op.perform config now store).result = .error f

/-- The record that is shown after a tick is there. -/
theorem not_fails_tick {id : String} {command : Command} {d : Deployment}
    (hread : (perform config now store (.tick id command)).store.deployment id = .ok d) :
    ¬Fails config now store (.tick id command) := by
  rintro ⟨f, hf⟩
  unfold Store.deployment at hread
  split at hread
  · cases hread
  · cases hread
  · next shown hshown =>
    have hresult : (perform config now store (.tick id command)).result = .ok shown.toJson := by
      unfold perform at hshown ⊢
      dsimp only at hshown ⊢
      rw [hshown]
    rw [hresult] at hf
    cases hf

/-- A tick fails only if there is no record that can be read, and so there is nothing that it
could change. -/
theorem store_of_failed_tick {id : String} {command : Command}
    (hfails : Fails config now store (.tick id command)) :
    (perform config now store (.tick id command)).store = store := by
  have hstore : (perform config now store (.tick id command)).store =
      (Updater.tick ⟨config.controller.stepPolicy, now⟩
        (LocalScheduler.mk config.scheduler.autoReady now).scheduler.onFirst id command
        (store, ())).2.1 := rfl
  cases hread : store.deployment id with
  | error e =>
    rw [hstore]
    exact Updater.store_of_unreadable_tick hread
  | ok d =>
    have hread : (store, ()).1.deployment id = .ok d := hread
    obtain ⟨d', hreadable⟩ := Updater.readable_after_tick hread
    rw [← hstore] at hreadable
    exact absurd hfails (not_fails_tick hreadable)

/-- Adding a deployment fails before it is added, or because of unreadable instances after that. -/
theorem begin_failed {scheduler : LocalScheduler} {d : Deployment} {f : Failure}
    (hfails : (begin scheduler store d).1 = .error f) :
    (begin scheduler store d).2 = store ∨
      Residue store (.create d) (begin scheduler store d).2 := by
  cases hcreate : store.create d with
  | error e =>
    left
    simp only [begin, hcreate]
  | ok created =>
    have hsame : created.instanceList d.appId d.previousVersion =
        store.instanceList d.appId d.previousVersion := by
      rw [Store.create_eq_ok hcreate]
      rfl
    cases hlist : created.instanceList d.appId d.previousVersion with
    | error e =>
      right
      simp only [begin, hcreate, LocalScheduler.setCount_of_error hlist]
      exact .created hcreate (hsame.symm.trans hlist)
    | ok existing =>
      obtain ⟨after, hset, -⟩ := scheduler.setCount_of_ok hlist d.originalInstances
      simp only [begin, hcreate, hset] at hfails
      cases hfails

/-- An operator request fails as a command when it is answered with an error. -/
theorem ofRequest_failed_iff {answer : Except OperatorError Deployment × Store} :
    (∃ f, (ofRequest answer).result = .error f) ↔ ∃ e, answer.1 = .error e := by
  constructor
  · rintro ⟨f, hfails⟩
    cases hanswer : answer.1 with
    | error e => exact ⟨e, rfl⟩
    | ok d =>
      rw [ofRequest, hanswer] at hfails
      cases hfails
  · rintro ⟨e, hanswer⟩
    rw [ofRequest, hanswer]
    exact ⟨_, rfl⟩

/-- An operation that fails leaves the store as it was, or one of the three residues. -/
theorem failed_leaves {op : Operation} (hfails : Fails config now store op) :
    (op.perform config now store).store = store ∨
      op.Residue store (op.perform config now store).store := by
  cases op with
  | create d =>
    obtain ⟨f, hf⟩ := hfails
    exact begin_failed hf
  | tick id command => exact Or.inl (store_of_failed_tick hfails)
  | cancel id =>
    obtain ⟨e, he⟩ := ofRequest_failed_iff.mp hfails
    rcases Operator.submit_failed he with hsame | ⟨d, hread, hrefuses, hafter⟩
    · exact Or.inl hsame
    · exact Or.inr (.canceled hread (Deployment.requestCancel?_eq_none_iff.mp hrefuses) hafter)
  | promote id =>
    obtain ⟨e, he⟩ := ofRequest_failed_iff.mp hfails
    rcases Operator.submit_failed he with hsame | ⟨d, hread, hrefuses, hafter⟩
    · exact Or.inl hsame
    · exact Or.inr (.promoted hread (Deployment.promote?_eq_none_iff.mp hrefuses) hafter)
  | list => exact Or.inl rfl

/-- A residue is never the store of before. -/
theorem Residue.ne {op : Operation} {after : Store} (h : op.Residue store after) :
    after ≠ store := by
  cases h with
  | canceled hread _ hafter | promoted hread _ hafter =>
    rw [hafter]
    exact Store.overwrite_nextRevision_ne hread
  | created hcreate =>
    rintro rfl
    have hadded := (Store.holds_create hcreate).text
    rw [Store.free_of_create hcreate] at hadded
    cases hadded

/-- Where a residue can be left, the operation fails. -/
theorem Residue.fails {op : Operation} {after : Store} (h : op.Residue store after)
    (config : Config) (now : UInt64) :
    Fails config now store op ∧ (op.perform config now store).store = after := by
  cases h with
  | canceled hread hphase hafter =>
    have hrefuses := Deployment.requestCancel?_eq_none_iff.mpr hphase
    simp only [Fails, perform, Operator.requestCancel, Operator.submit_of_none hread hrefuses]
    exact ⟨⟨_, rfl⟩, hafter.symm⟩
  | promoted hread hphase hafter =>
    have hrefuses := Deployment.promote?_eq_none_iff.mpr hphase
    simp only [Fails, perform, Operator.promote, Operator.submit_of_none hread hrefuses]
    exact ⟨⟨_, rfl⟩, hafter.symm⟩
  | @created d _ e hcreate hlist =>
    have hlist : after.instanceList d.appId d.previousVersion = .error e := by
      rw [Store.create_eq_ok hcreate]
      exact hlist
    simp only [Fails, perform, begin, hcreate, LocalScheduler.setCount_of_error hlist]
    exact ⟨⟨_, rfl⟩, trivial⟩

/-- Exactly three kinds of operations fail and change the store all the same. -/
theorem fails_and_changes_iff (config : Config) (now : UInt64) (store : Store) (op : Operation) :
    Fails config now store op ∧ (op.perform config now store).store ≠ store ↔
      op.Residue store (op.perform config now store).store := by
  constructor
  · rintro ⟨hfails, hne⟩
    exact (failed_leaves hfails).resolve_left hne
  · intro h
    exact ⟨(h.fails config now).1, h.ne⟩

end CommandLine.Operation

end Rollout
