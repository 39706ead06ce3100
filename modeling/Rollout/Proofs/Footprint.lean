import Rollout.Proofs.Census
import Rollout.Proofs.FailedOperation
import Rollout.Proofs.InstanceTable
import Rollout.Proofs.StoreText
import Rollout.Proofs.TableMap

/-!
# The footprint of a tick

A tick that is run with the local scheduler touches one record and the instances of two versions.
What it does depends on nothing else in the store, and it changes nothing else.
-/

namespace Rollout

/-! ## Tables that agree -/

namespace Table

variable {α : Type} {t t' : Table α}

/-- Tables that have the same values under some keys have the same entries there. -/
theorem filter_entries_eq {p : String → Bool}
    (h : ∀ key, p key = true → t.get? key = t'.get? key) :
    t.entries.filter (p ·.1) = t'.entries.filter (p ·.1) := by
  have : Std.Asymm fun a b : String × α => a.1 < b.1 := ⟨fun _ _ => String.lt_asymm⟩
  refine (t.sorted.filter _).eq_of_mem_iff (t'.sorted.filter _) fun ⟨key, value⟩ => ?_
  rw [List.mem_filter, List.mem_filter, mem_entries_iff, mem_entries_iff]
  exact and_congr_left fun hkey => by rw [h key hkey]

/-- A table is known by its values. -/
theorem eq_of_get? (h : ∀ key, t.get? key = t'.get? key) : t = t' := by
  have hentries := filter_entries_eq (p := fun _ => true) fun key _ => h key
  rw [List.filter_true, List.filter_true] at hentries
  exact Table.ext hentries

end Table

/-! ## Setting a count -/

namespace LocalScheduler

variable (s : LocalScheduler) {store : Store} {appId version : String} {count : UInt32}

/-- What setting a count makes of the store, when these are the instances that there are. -/
def resized (appId version : String) (count : UInt32) (existing : List Instance)
    (store : Store) : Store :=
  if UInt32.ofNat existing.length < count then
    s.grow store appId version existing (count - UInt32.ofNat existing.length)
  else
    shrink store appId version existing (UInt32.ofNat existing.length - count).toNat

private theorem scheduler_setCount_of_ok {existing : List Instance}
    (h : store.instanceList appId version = .ok existing) :
    s.scheduler (.setCount appId version count) store =
      (.ok (), s.resized appId version count existing store) := by
  have hset : s.setCount store appId version count =
      .ok (s.resized appId version count existing store) := by
    simp only [setCount, h, resized, bind, Except.bind]
    split <;> rfl
  simp only [scheduler, hset]

private theorem scheduler_setCount_of_error {e : StoreError}
    (h : store.instanceList appId version = .error e) :
    s.scheduler (.setCount appId version count) store = (.error (.store e), store) := by
  simp only [scheduler, setCount_of_error h]

end LocalScheduler

/-! ## Footprints -/

/-- A record, and the versions whose instances go with it. -/
structure Footprint where
  /-- The id of the record. -/
  id : String
  /-- The versions. -/
  subjects : List (String × String)

namespace Footprint

/-- The key of an instance begins as those of one of the versions do. -/
def Covers (f : Footprint) (key : String) : Prop :=
  ∃ subject ∈ f.subjects, Store.isKeyOf subject.1 subject.2 key = true

/-- Two stores are the same in the footprint. -/
structure Agree (f : Footprint) (store store' : Store) : Prop where
  /-- They have the same record. -/
  record : store.deployments.get? f.id = store'.deployments.get? f.id
  /-- They have the same entries under all keys of the versions. -/
  instances : ∀ key, f.Covers key → store.instances.get? key = store'.instances.get? key

/-- What follows after a store is the same outside of the footprint. -/
structure Spares (f : Footprint) (store after : Store) : Prop where
  /-- All other records are as they were. -/
  records : ∀ id, id ≠ f.id → after.deployments.get? id = store.deployments.get? id
  /-- The entries under all other keys are as they were. -/
  instances : ∀ key, ¬f.Covers key → after.instances.get? key = store.instances.get? key

variable {f : Footprint} {store store' after next : Store} {appId version : String}

/-- What agrees with a store agrees with whatever that store agrees with. -/
theorem Agree.trans {store'' : Store} (h : f.Agree store store') (h' : f.Agree store' store'') :
    f.Agree store store'' where
  record := h.record.trans h'.record
  instances key hkey := (h.instances key hkey).trans (h'.instances key hkey)

private theorem Spares.refl (f : Footprint) (store : Store) : f.Spares store store :=
  ⟨fun _ _ => rfl, fun _ _ => rfl⟩

private theorem Spares.trans (h : f.Spares store after) (h' : f.Spares after next) :
    f.Spares store next where
  records id hid := (h'.records id hid).trans (h.records id hid)
  instances key hkey := (h'.instances key hkey).trans (h.instances key hkey)

/-! ### Instances -/

private theorem Agree.putInstance (h : f.Agree store store') (i : Instance) :
    f.Agree (store.putInstance i) (store'.putInstance i) := by
  refine ⟨h.record, fun key hkey => ?_⟩
  show (store.instances.insert i.key i.toText).get? key =
    (store'.instances.insert i.key i.toText).get? key
  rw [Table.get?_insert, Table.get?_insert, h.instances key hkey]

private theorem Spares.putInstance {i : Instance} (hi : f.Covers i.key) :
    f.Spares store (store.putInstance i) := by
  refine ⟨fun _ _ => rfl, fun key hkey => ?_⟩
  refine (Table.get?_insert ..).trans (if_neg ?_)
  rintro rfl
  exact hkey hi

private theorem Agree.deleteInstance (h : f.Agree store store') (appId version : String)
    (index : UInt32) :
    f.Agree (store.deleteInstance appId version index).2
      (store'.deleteInstance appId version index).2 := by
  refine ⟨h.record, fun key hkey => ?_⟩
  show (store.instances.erase (Instance.keyOf appId version index)).get? key =
    (store'.instances.erase (Instance.keyOf appId version index)).get? key
  rw [Table.get?_erase, Table.get?_erase, h.instances key hkey]

private theorem Spares.deleteInstance {index : UInt32}
    (hkey : f.Covers (Instance.keyOf appId version index)) :
    f.Spares store (store.deleteInstance appId version index).2 := by
  refine ⟨fun _ _ => rfl, fun key hother => ?_⟩
  refine (Table.get?_erase ..).trans (if_neg ?_)
  rintro rfl
  exact hother hkey

private theorem Agree.foldl {α : Type} {write : Store → α → Store}
    (hwrite : ∀ store store' a, f.Agree store store' → f.Agree (write store a) (write store' a))
    (h : f.Agree store store') (list : List α) :
    f.Agree (list.foldl write store) (list.foldl write store') := by
  induction list generalizing store store' with
  | nil => exact h
  | cons a list ih => exact ih (hwrite store store' a h)

private theorem Spares.foldl {α : Type} {write : Store → α → Store}
    (hwrite : ∀ store a, f.Spares store (write store a)) (list : List α) :
    f.Spares store (list.foldl write store) := by
  induction list generalizing store with
  | nil => exact .refl f store
  | cons a list ih => exact (hwrite store a).trans ih

private theorem covers_keyOf (hsubject : (appId, version) ∈ f.subjects) (index : UInt32) :
    f.Covers (Instance.keyOf appId version index) :=
  ⟨(appId, version), hsubject, (Instance.isKeyOf_keyOf (_, _) (_, _) index).mpr (.refl _)⟩

private theorem Agree.instanceEntries_eq (h : f.Agree store store')
    (hsubject : (appId, version) ∈ f.subjects) :
    store.instanceEntries appId version = store'.instanceEntries appId version := by
  rw [Store.instanceEntries_eq, Store.instanceEntries_eq]
  exact Table.filter_entries_eq fun key hkey => h.instances key ⟨_, hsubject, hkey⟩

/-- Stores that agree list the same instances of each version in the footprint. -/
theorem Agree.instanceList_eq (h : f.Agree store store')
    (hsubject : (appId, version) ∈ f.subjects) :
    store.instanceList appId version = store'.instanceList appId version := by
  rw [Store.instanceList, Store.instanceList, h.instanceEntries_eq hsubject]

private theorem get?_deleteInstances (store : Store) (appId version key : String) :
    (store.deleteInstances appId version).2.instances.get? key =
      if Store.isKeyOf appId version key then none else store.instances.get? key := by
  rw [store.instances.get?_of_filter (p := (!Store.isKeyOf appId version ·))
    (store.entries_deleteInstances appId version)]
  cases Store.isKeyOf appId version key with
  | false => rfl
  | true => rfl

/-- Stores that agree still do after the instances of one of the versions are deleted, and as many
are. -/
theorem Agree.deleteInstances (h : f.Agree store store')
    (hsubject : (appId, version) ∈ f.subjects) :
    (store.deleteInstances appId version).1 = (store'.deleteInstances appId version).1 ∧
      f.Agree (store.deleteInstances appId version).2
        (store'.deleteInstances appId version).2 := by
  refine ⟨?_, h.record, fun key hkey => ?_⟩
  · simp only [Store.deleteInstances, h.instanceEntries_eq hsubject]
  · rw [get?_deleteInstances, get?_deleteInstances, h.instances key hkey]

/-- Deleting the instances of one of the versions spares the rest. -/
theorem Spares.deleteInstances (hsubject : (appId, version) ∈ f.subjects) :
    f.Spares store (store.deleteInstances appId version).2 := by
  refine ⟨fun _ _ => rfl, fun key hkey => ?_⟩
  rw [get?_deleteInstances, if_neg]
  exact fun hkeyOf => hkey ⟨_, hsubject, hkeyOf⟩

/-! ### Acts -/

/-- What is done in the same way to stores that are the same in the footprint: the results are the
same, and so is what is left in the footprint, and the rest stays as it was. -/
structure Local {α : Type} (f : Footprint) (act : Store → α × Store) : Prop where
  /-- From stores that agree it has the same result and leaves stores that agree. -/
  alike : ∀ {store store'}, f.Agree store store' →
    (act store).1 = (act store').1 ∧ f.Agree (act store).2 (act store').2
  /-- It leaves the rest. -/
  spares : ∀ store, f.Spares store (act store).2

private theorem local_pure {α : Type} (f : Footprint) (a : α) :
    f.Local fun store => (a, store) where
  alike h := ⟨rfl, h⟩
  spares store := .refl f store

/-- Two acts one after the other, where the second depends on what the first has come to. -/
theorem Local.bind {α β : Type} {first : Store → α × Store} (hfirst : f.Local first)
    (second : α → Store → β × Store) (hsecond : ∀ store, f.Local (second (first store).1)) :
    f.Local fun store => second (first store).1 (first store).2 where
  alike {store store'} h := by
    obtain ⟨hresult, hagree⟩ := hfirst.alike h
    rw [← hresult]
    exact (hsecond store).alike hagree
  spares store := (hfirst.spares store).trans ((hsecond store).spares _)

/-- Counting the instances of one of the versions is local. -/
theorem local_query (s : LocalScheduler) (hsubject : (appId, version) ∈ f.subjects) :
    f.Local (s.scheduler (.query appId version)) where
  alike h := by
    refine ⟨?_, h⟩
    simp only [LocalScheduler.scheduler, LocalScheduler.health, h.instanceList_eq hsubject]
  spares store := .refl f store

/-- Removing one of the versions is local. -/
theorem local_remove (s : LocalScheduler) (hsubject : (appId, version) ∈ f.subjects) :
    f.Local (s.scheduler (.remove appId version)) where
  alike h := by
    obtain ⟨hremoved, hagree⟩ := h.deleteInstances hsubject
    exact ⟨congrArg Except.ok hremoved, hagree⟩
  spares _ := .deleteInstances hsubject

private theorem Agree.resized (h : f.Agree store store') (s : LocalScheduler)
    (appId version : String) (count : UInt32) (existing : List Instance) :
    f.Agree (s.resized appId version count existing store)
      (s.resized appId version count existing store') := by
  unfold LocalScheduler.resized
  split
  · refine Agree.foldl (fun store store' added h => ?_) h _
    exact h.putInstance (s.fresh appId version _)
  · refine Agree.foldl (fun store store' (i : Instance) h => ?_) h _
    exact h.deleteInstance appId version i.index

private theorem Spares.resized (s : LocalScheduler) (hsubject : (appId, version) ∈ f.subjects)
    (count : UInt32) (existing : List Instance) :
    f.Spares store (s.resized appId version count existing store) := by
  unfold LocalScheduler.resized
  split
  · refine Spares.foldl (fun store added => ?_) _
    exact .putInstance (i := s.fresh appId version _) (covers_keyOf hsubject _)
  · refine Spares.foldl (fun store (i : Instance) => ?_) _
    exact .deleteInstance (covers_keyOf hsubject i.index)

/-- Setting the count of one of the versions is local. -/
theorem local_setCount (s : LocalScheduler) (hsubject : (appId, version) ∈ f.subjects)
    (count : UInt32) : f.Local (s.scheduler (.setCount appId version count)) where
  alike {store store'} h := by
    have hlist := h.instanceList_eq hsubject
    cases hexisting : store.instanceList appId version with
    | error e =>
      rw [s.scheduler_setCount_of_error hexisting,
        s.scheduler_setCount_of_error (hlist.symm.trans hexisting)]
      exact ⟨rfl, h⟩
    | ok existing =>
      rw [s.scheduler_setCount_of_ok hexisting,
        s.scheduler_setCount_of_ok (hlist.symm.trans hexisting)]
      exact ⟨rfl, h.resized s appId version count existing⟩
  spares store := by
    cases hexisting : store.instanceList appId version with
    | error e =>
      rw [s.scheduler_setCount_of_error hexisting]
      exact .refl f store
    | ok existing =>
      rw [s.scheduler_setCount_of_ok hexisting]
      exact .resized s hsubject count existing

/-- A call about a version of the footprint is local. -/
theorem local_call (s : LocalScheduler) {c : Call} (hc : c.subject ∈ f.subjects) :
    f.Local (s.scheduler c) := by
  cases c with
  | query appId version => exact local_query s hc
  | setCount appId version count => exact local_setCount s hc count
  | remove appId version => exact local_remove s hc

/-- A plan that makes only such calls is local, whatever is answered. -/
theorem local_run {α : Type} (s : LocalScheduler) {plan : Plan α}
    (hcalls : ∀ (trace : List (Exchange Store)) (a : α), plan.Runs trace a →
      ∀ e ∈ trace, e.call.subject ∈ f.subjects) :
    f.Local (plan.run s.scheduler) := by
  induction plan with
  | done a => exact local_pure f a
  | call c next ih =>
    -- Every run begins with the same call, so any run shows what it is about.
    have hfirst : c.subject ∈ f.subjects :=
      hcalls _ _ ((Plan.call c next).runs_trace s.scheduler .empty) _ List.mem_cons_self
    refine (local_call s hfirst).bind (fun answer => (next answer).run s.scheduler)
      fun store => ih _ fun trace a hruns => ?_
    have hall := hcalls (⟨c, (s.scheduler c store).1, store⟩ :: trace) a (.call hruns)
    exact (List.forall_mem_cons.mp hall).2

end Footprint

/-! ## The calls of a tick -/

section

variable {World : Type} {d : Deployment} {trace : List (Exchange World)}

/-- The versions that a rollout is about. -/
def Deployment.subjects (d : Deployment) : List (String × String) :=
  [(d.appId, d.version), (d.appId, d.previousVersion)]

/-- What a rollout has to do with: its record and the instances of its versions. -/
def Deployment.footprint (d : Deployment) : Footprint where
  id := d.id
  subjects := d.subjects

/-- A scale step makes calls about the versions of its rollout only. -/
theorem ScaleCourse.subject_mem {policy : StepPolicy} {goal : ScaleGoal}
    {outcome : Outcome ScaleStep} (h : ScaleCourse policy goal d trace outcome) :
    ∀ e ∈ trace, e.call.subject ∈ d.subjects := by
  cases h with
  | refused => simp
  | unanswered | waiting | unretired => simp [Call.subject, Deployment.subjects]
  | stepped _ _ _ _ hretiring hmoving =>
    cases hretiring <;> cases hmoving <;> simp [Call.subject, Deployment.subjects]

/-- Every call of a tick is about one of the two versions. -/
theorem TickCourse.subject_mem {u : Updater} {command : Command} {outcome : Outcome Unit}
    (h : TickCourse u d command trace outcome) : ∀ e ∈ trace, e.call.subject ∈ d.subjects := by
  cases h with
  | scaleFailed _ hstep | scaled _ hstep | canaryFailed _ _ hstep | canaried _ _ hstep =>
    exact hstep.subject_mem
  | unfinalized _ hstep | finalized _ hstep =>
    intro e he
    rcases List.mem_append.mp he with he | he
    · exact hstep.subject_mem e he
    · obtain rfl := List.mem_singleton.mp he
      simp [Call.subject, Deployment.subjects]
  | _ => simp [Call.subject, Deployment.subjects]

end

/-! ## Writing the outcome -/

namespace Footprint

variable {f : Footprint} {store store' : Store}

/-- Stores that agree have the same record. -/
theorem Agree.deployment_eq (h : f.Agree store store') :
    store.deployment f.id = store'.deployment f.id := by
  simp only [Store.deployment, Store.deployment?, h.record]

private theorem Agree.overwrite (h : f.Agree store store') (d : Deployment) :
    f.Agree (store.overwrite f.id d) (store'.overwrite f.id d) := by
  refine ⟨?_, h.instances⟩
  show (store.deployments.insert f.id d.toText).get? f.id =
    (store'.deployments.insert f.id d.toText).get? f.id
  rw [Table.get?_insert, Table.get?_insert, h.record]

private theorem Spares.overwrite (f : Footprint) (store : Store) (d : Deployment) :
    f.Spares store (store.overwrite f.id d) :=
  ⟨fun _ hid => (Table.get?_insert ..).trans (if_neg hid), fun _ _ => rfl⟩

end Footprint

/-- Whether a commit goes through, and what it writes, is decided by the record under the id. -/
theorem Store.commit_alike {store store' : Store} {id : String} {d : Deployment}
    (h : store.deployment id = store'.deployment id) (hid : d.id = id) (expected : UInt64) :
    (∃ e, store.commit d expected = .error e ∧ store'.commit d expected = .error e) ∨
    ∃ written, store.commit d expected = .ok (written, store.overwrite id written) ∧
      store'.commit d expected = .ok (written, store'.overwrite id written) := by
  subst hid
  simp only [commit, ← h]
  cases store.deployment d.id with
  | error e => exact Or.inl ⟨e, rfl, rfl⟩
  | ok stored =>
    by_cases hrevision : stored.revision = expected
    · simp only [hrevision, ne_eq, not_true_eq_false, if_false]
      exact Or.inr ⟨_, rfl, rfl⟩
    · simp only [ne_eq, hrevision, not_false_eq_true, if_true]
      exact Or.inl ⟨_, rfl, rfl⟩

/-- Two stores are left as they are, or get the same record under an id, with the same report. -/
inductive SameWrite (id : String) (store store' : Store) :
    TickReport × Store → TickReport × Store → Prop where
  | none (report : TickReport) : SameWrite id store store' (report, store) (report, store')
  | some (report : TickReport) (d : Deployment) :
    SameWrite id store store' (report, store.overwrite id d) (report, store'.overwrite id d)

namespace Updater

variable (u : Updater) {store store' : Store} {id : String}

/-- Recording a failure depends on the record only. -/
theorem sameWrite_recordFailure (h : store.deployment id = store'.deployment id)
    (command : Command) (e : TickError) :
    SameWrite id store store' (u.recordFailure store id command e)
      (u.recordFailure store' id command e) := by
  by_cases hmissing : ∃ missing, e = .notFound missing
  · obtain ⟨missing, rfl⟩ := hmissing
    exact .none _
  · rw [not_exists] at hmissing
    cases hstored : store.deployment id with
    | error e' =>
      simp only [recordFailure, Store.update, ← h, hstored]
      exact .none _
    | ok stored =>
      rw [recordFailure_of_ok u command hstored hmissing,
        recordFailure_of_ok u command (h.symm.trans hstored) hmissing]
      exact .some _ _

/-- Saving an outcome depends on the record only. -/
theorem sameWrite_settle (h : store.deployment id = store'.deployment id) (command : Command)
    (before : Deployment) {outcome : Outcome Unit} (hid : outcome.1.id = id) :
    SameWrite id store store' (u.settle store id command before outcome)
      (u.settle store' id command before outcome) := by
  obtain ⟨copy, result⟩ := outcome
  cases result with
  | error e => exact u.sameWrite_recordFailure h command e
  | ok _ =>
    by_cases hchanged : copy = before
    · rw [hchanged, settle_of_same, settle_of_same]
      exact .none _
    · let draft : Deployment := { copy with updatedAt := u.now }
      have hdraft : draft.id = id := hid
      rcases Store.commit_alike h hdraft before.revision with
        ⟨e, hcommit, hcommit'⟩ | ⟨written, hcommit, hcommit'⟩
      · rw [settle_of_conflict u command hchanged hcommit,
          settle_of_conflict u command hchanged hcommit']
        exact u.sameWrite_recordFailure h command _
      · rw [settle_of_commit u command hchanged hcommit,
          settle_of_commit u command hchanged hcommit']
        exact .some _ _

end Updater

/-- What depends on the record only, and writes nothing else, is local. -/
theorem Footprint.local_of_sameWrite {f : Footprint} {act : Store → TickReport × Store}
    (h : ∀ store store' : Store, store.deployment f.id = store'.deployment f.id →
      SameWrite f.id store store' (act store) (act store')) : f.Local act where
  alike {store store'} hagree := by
    have hsame := h store store' hagree.deployment_eq
    generalize act store = written, act store' = written' at hsame ⊢
    cases hsame with
    | none report => exact ⟨rfl, hagree⟩
    | some report d => exact ⟨rfl, hagree.overwrite d⟩
  spares store := by
    have hsame := h store store rfl
    generalize act store = written at hsame ⊢
    cases hsame with
    | none report => exact .refl f store
    | some report d => exact .overwrite f store d

/-! ## Ticks -/

/-- A scheduler that works on one part of a world leaves the rest as it is. -/
theorem Plan.run_onFirst {α World Rest : Type} (scheduler : Scheduler World) (plan : Plan α)
    (w : World) (rest : Rest) :
    plan.run scheduler.onFirst (w, rest) =
      ((plan.run scheduler w).1, (plan.run scheduler w).2, rest) := by
  induction plan generalizing w with
  | done a => rfl
  | call c next ih => exact ih _ _

namespace Updater

variable (u : Updater) {d : Deployment}

/-- A tick for a record that has been read. -/
def attempt (scheduler : Scheduler Store) (d : Deployment) (command : Command) (store : Store) :
    TickReport × Store :=
  let ran := (u.action command d).run scheduler store
  u.settle ran.2 d.id command d ran.1

private theorem tick_onFirst {Rest : Type} (scheduler : Scheduler Store) (command : Command)
    {store : Store} (rest : Rest) (hread : store.deployment d.id = .ok d) :
    u.tick scheduler.onFirst d.id command (store, rest) =
      ((u.attempt scheduler d command store).1, (u.attempt scheduler d command store).2, rest) := by
  rw [tick_of_read u scheduler.onFirst command hread,
    midway_of_read u scheduler.onFirst command hread, Plan.run_onFirst]
  rfl

/-- A tick with the local scheduler keeps to its record and the instances of its versions. -/
theorem local_attempt (s : LocalScheduler) (d : Deployment) (command : Command) :
    d.footprint.Local (u.attempt s.scheduler d command) := by
  have hcourse (store : Store) := tickCourse_of_runs
    ((u.action command d).runs_trace s.scheduler store)
  have hrun : d.footprint.Local ((u.action command d).run s.scheduler) :=
    Footprint.local_run s fun trace a hruns => (tickCourse_of_runs hruns).subject_mem
  refine hrun.bind (fun outcome store => u.settle store d.id command d outcome) fun store => ?_
  refine Footprint.local_of_sameWrite fun before after hsame => ?_
  refine u.sameWrite_settle hsame command d ?_
  exact congrArg Terms.id (hcourse store).draft.terms

section

variable {Rest : Type} {s : LocalScheduler} {w w' : Store × Rest}

/-- Stores that agree on the footprint of a rollout still do after a tick of it. -/
theorem agree_tick (command : Command) (hread : w.1.deployment d.id = .ok d)
    (h : d.footprint.Agree w.1 w'.1) :
    d.footprint.Agree (u.tick s.scheduler.onFirst d.id command w).2.1
      (u.tick s.scheduler.onFirst d.id command w').2.1 := by
  have hread' : w'.1.deployment d.id = .ok d := h.deployment_eq.symm.trans hread
  rw [u.tick_onFirst s.scheduler command w.2 hread, u.tick_onFirst s.scheduler command w'.2 hread']
  exact ((u.local_attempt s d command).alike h).2

/-- A tick spares what is outside of its footprint. -/
theorem spares_tick (command : Command) (hread : w.1.deployment d.id = .ok d) :
    d.footprint.Spares w.1 (u.tick s.scheduler.onFirst d.id command w).2.1 := by
  rw [u.tick_onFirst s.scheduler command w.2 hread]
  exact (u.local_attempt s d command).spares w.1

/-- A tick leaves what is beside the store. -/
theorem rest_tick (command : Command) (hread : w.1.deployment d.id = .ok d) :
    (u.tick s.scheduler.onFirst d.id command w).2.2 = w.2 := by
  rw [u.tick_onFirst s.scheduler command w.2 hread]

end

end Updater

end Rollout
