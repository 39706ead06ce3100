import Rollout.Operator
import Rollout.Proofs.Records
import Rollout.Tick.Basic

/-!
# The stored record

Everything that ticks and operators do to a store is, for the deployment under one id, a change
of one record. The operations of the store are restated here as what they make of that record,
so that later arguments need not look at tables and texts again.
-/

namespace Rollout

/-! ## Tables -/

namespace Table

variable {α : Type}

private theorem lookup_place (key other : String) (value : α) (entries : List (String × α)) :
    (place key value entries).lookup other =
      if other = key then some value else entries.lookup other := by
  induction entries with
  | nil => rw [place, lookup_cons_eq_ite]
  | cons entry rest ih =>
    unfold place
    split
    · rw [lookup_cons_eq_ite]
    · split
      · next heq =>
        rw [lookup_cons_eq_ite, lookup_cons_eq_ite, ← heq]
        by_cases h : other = key
        · rw [if_pos h, if_pos h]
        · rw [if_neg h, if_neg h, if_neg h]
      · next hne =>
        rw [lookup_cons_eq_ite, lookup_cons_eq_ite, ih]
        by_cases h : other = entry.1
        · have hother : other ≠ key := fun heq => hne (heq.symm.trans h)
          rw [if_pos h, if_neg hother, if_pos h]
        · rw [if_neg h, if_neg h]

/-- Only the key that is written gets a new value. -/
theorem get?_insert (t : Table α) (key other : String) (value : α) :
    (t.insert key value).get? other = if other = key then some value else t.get? other :=
  lookup_place key other value t.entries

end Table

/-! ## The record under an id -/

/-- The record with the next revision, as every write leaves it. -/
def Deployment.nextRevision (d : Deployment) : Deployment :=
  { d with revision := d.revision + 1 }

namespace Store

/-- The store has a deployment under an id, which is its own. -/
structure Holds (store : Store) (id : String) (d : Deployment) : Prop where
  /-- Its text stands under the id. -/
  text : store.deployments.get? id = some d.toText
  /-- The id is its own. -/
  own : d.id = id

variable {store : Store} {id : String} {d stored : Deployment}

/-- What the store holds under an id is found there. -/
theorem Holds.deployment? (h : store.Holds id d) : store.deployment? id = .ok (some d) := by
  simp only [Store.deployment?, h.text, readDeployment, Deployment.ofText?_toText, Except.map]

/-- What the store holds under an id is read from there. -/
theorem Holds.deployment (h : store.Holds id d) : store.deployment id = .ok d := by
  rw [Store.deployment, h.deployment?]

/-- Only the table of deployments says which record is held. -/
theorem Holds.of_get?_eq {other : Store} (h : store.Holds id d)
    (heq : other.deployments.get? id = store.deployments.get? id) : other.Holds id d :=
  ⟨heq.trans h.text, h.own⟩

/-- The store in which a deployment is written under its own id. -/
def write (store : Store) (d : Deployment) : Store :=
  { store with deployments := store.deployments.insert d.id d.toText }

/-- Writing a deployment leaves the instances. -/
@[simp] theorem instances_write (store : Store) (d : Deployment) :
    (store.write d).instances = store.instances :=
  rfl

/-- What has been written is in the store. -/
theorem holds_write (store : Store) (d : Deployment) : (store.write d).Holds d.id d :=
  ⟨(Table.get?_insert ..).trans (if_pos rfl), rfl⟩

/-- A deployment that has been written is in the store under its id. -/
theorem holds_write_of_id (store : Store) (h : d.id = id) : (store.write d).Holds id d :=
  h ▸ store.holds_write d

/-- A deployment that is created is written. -/
theorem create_eq_ok {created : Store} (h : store.create d = .ok created) :
    created = store.write d := by
  unfold create at h
  split at h
  · cases h
  · exact (Except.ok.inj h).symm

/-- A new deployment is held as it was given. -/
theorem holds_create {created : Store} (h : store.create d = .ok created) :
    created.Holds d.id d := by
  rw [create_eq_ok h]
  exact store.holds_write d

/-- A commit that expects the stored revision writes the next one. -/
theorem Holds.commit_eq_ok (h : store.Holds id stored) (hid : d.id = id) :
    store.commit d stored.revision =
      .ok ({ d with revision := stored.revision + 1 },
        store.write { d with revision := stored.revision + 1 }) := by
  rw [commit, hid, h.deployment]
  simp [write]

/-- A commit that expects another revision than the stored one is refused. -/
theorem Holds.commit_eq_conflict (h : store.Holds id stored) (hid : d.id = id)
    {expected : UInt64} (hne : stored.revision ≠ expected) :
    store.commit d expected = .error (.conflict id expected stored.revision) := by
  rw [commit, hid, h.deployment]
  simp [hne]

/-- An update writes what becomes of the stored record, with the next revision. -/
theorem Holds.update_eq_ok (h : store.Holds id stored) (change : Deployment → Deployment)
    (hid : (change stored).id = id) :
    store.update id change =
      .ok ((change stored).nextRevision, store.write (change stored).nextRevision) := by
  simp only [update, h.deployment, write, Deployment.nextRevision, hid]

end Store

/-! ## Operators -/

namespace Operator

variable {store : Store} {id : String} {d : Deployment}

/-- An operator request writes what it makes of the record, and a refused one the record as it
is; either way with the next revision. -/
theorem submit_eq_write {ask : Deployment → Option Deployment}
    (refusal : String → Phase → OperatorError) (h : store.Holds id d)
    (hid : ((ask d).getD d).id = id) :
    (submit ask refusal store id).2 = store.write ((ask d).getD d).nextRevision := by
  unfold submit
  simp only [h.deployment, h.update_eq_ok (fun d => (ask d).getD d) hid]
  split <;> rfl

/-- The record after a cancel request. -/
def canceled (d : Deployment) : Deployment :=
  (d.requestCancel?.getD d).nextRevision

/-- The record after a promotion. -/
def promoted (d : Deployment) : Deployment :=
  (d.promote?.getD d).nextRevision

/-- A cancel request writes the record after it, also when it is refused. -/
theorem requestCancel_eq_write (h : store.Holds id d) :
    (requestCancel store id).2 = store.write (canceled d) := by
  refine submit_eq_write _ h ?_
  unfold Deployment.requestCancel?
  split <;> exact h.own

/-- A promotion writes the record after it, also when it is refused. -/
theorem promote_eq_write (h : store.Holds id d) :
    (promote store id).2 = store.write (promoted d) := by
  refine submit_eq_write _ h ?_
  unfold Deployment.promote?
  split <;> exact h.own

end Operator

/-! ## Ticks -/

/-- The phase that a failed tick of a command puts a deployment in, while it is in progress. -/
def Command.failurePhase : Command → Phase
  | .cancel => .canceling
  | .scale | .canary => .failed

namespace Updater

/-- What a failure writes on a record: its phase if it counts against a rollout in progress, its
text and the time. -/
theorem withFailure_eq (u : Updater) (command : Command) (e : TickError) (d : Deployment) :
    u.withFailure command e d =
      { (if !e.isRefusal && d.phase.isInProgress then d.setPhase command.failurePhase else d) with
        error := some e.persisted
        updatedAt := u.now } := by
  unfold withFailure
  cases command <;> dsimp only [Command.failurePhase] <;> split <;> rfl

/-- The mark of a failure leaves the id. -/
theorem id_withFailure (u : Updater) (command : Command) (e : TickError) (d : Deployment) :
    (u.withFailure command e d).id = d.id := by
  rw [withFailure_eq]
  dsimp only
  split <;> rfl

/-- What the end of a tick makes of the stored record: the copy that the tick worked on if it
succeeded and nobody has written since, and else the stored record with the failure on it. -/
def settled (u : Updater) (command : Command) (before stored : Deployment) :
    Outcome Unit → Deployment
  | (_, .error (.notFound _)) => stored
  | (_, .error e) => (u.withFailure command e stored).nextRevision
  | (d, .ok ()) =>
    if d = before then stored
    else if stored.revision = before.revision then
      { d with updatedAt := u.now, revision := before.revision + 1 }
    else
      (u.withFailure command (.store (.conflict stored.id before.revision stored.revision))
        stored).nextRevision

variable {store : Store} {id : String} {before stored : Deployment}

/-- A tick that succeeds leaves the stored record if its copy is unchanged, writes the copy if
nobody has written since, and else marks a conflict. -/
theorem settled_ok (u : Updater) (command : Command) (before stored d : Deployment) :
    u.settled command before stored (d, .ok ()) =
      if d = before then stored
      else if stored.revision = before.revision then
        { d with updatedAt := u.now, revision := before.revision + 1 }
      else
        (u.withFailure command (.store (.conflict stored.id before.revision stored.revision))
          stored).nextRevision :=
  rfl

/-- A tick that fails marks the stored record, unless there is none. -/
theorem settled_error (u : Updater) (command : Command) (before stored d : Deployment)
    {e : TickError} (he : ∀ missing, e ≠ .notFound missing) :
    u.settled command before stored (d, .error e) =
      (u.withFailure command e stored).nextRevision := by
  cases e with
  | notFound missing => exact absurd rfl (he missing)
  | _ => rfl

/-- A failure is written on the stored record. -/
theorem recordFailure_eq_write (u : Updater) (command : Command) {e : TickError}
    (h : store.Holds id stored) (he : ∀ missing, e ≠ .notFound missing) :
    (u.recordFailure store id command e).2 =
      store.write (u.withFailure command e stored).nextRevision := by
  have hupdate := h.update_eq_ok (u.withFailure command e)
    ((id_withFailure u command e stored).trans h.own)
  unfold recordFailure
  split
  · next missing => exact absurd rfl (he missing)
  · rw [hupdate]

/-- The end of a tick leaves the store alone or writes the settled record. -/
theorem settle_eq_or_write (u : Updater) (command : Command) (before : Deployment)
    {outcome : Outcome Unit}
    (h : store.Holds id stored) (hid : outcome.1.id = id) :
    ((u.settle store id command before outcome).2 = store ∧
      u.settled command before stored outcome = stored) ∨
    ((u.settle store id command before outcome).2 =
        store.write (u.settled command before stored outcome) ∧
      (u.settled command before stored outcome).id = id) := by
  obtain ⟨d, result⟩ := outcome
  have hfailed (e : TickError) : (u.withFailure command e stored).nextRevision.id = id :=
    (id_withFailure u command e stored).trans h.own
  cases result with
  | error e =>
    cases e with
    | notFound missing => exact Or.inl ⟨rfl, rfl⟩
    | violation v => exact Or.inr ⟨recordFailure_eq_write u command h (by simp), hfailed _⟩
    | scheduler e => exact Or.inr ⟨recordFailure_eq_write u command h (by simp), hfailed _⟩
    | store e => exact Or.inr ⟨recordFailure_eq_write u command h (by simp), hfailed _⟩
  | ok _ =>
    unfold settle settled
    by_cases hsame : d = before
    · simp only [if_pos hsame, and_self, true_or]
    · right
      by_cases hrevision : stored.revision = before.revision
      · have hcommit := h.commit_eq_ok (d := { d with updatedAt := u.now }) hid
        rw [hrevision] at hcommit
        simp only [if_neg hsame, if_pos hrevision, hcommit]
        exact ⟨trivial, hid⟩
      · have hcommit := h.commit_eq_conflict (d := { d with updatedAt := u.now }) hid hrevision
        simp only [if_neg hsame, if_neg hrevision, hcommit, h.own]
        exact ⟨recordFailure_eq_write u command h (by simp), hfailed _⟩

/-- The end of a tick leaves the settled record. -/
theorem holds_settle (u : Updater) (command : Command) {outcome : Outcome Unit}
    (h : store.Holds id stored) (hid : outcome.1.id = id) :
    (u.settle store id command before outcome).2.Holds id
      (u.settled command before stored outcome) := by
  rcases u.settle_eq_or_write command before h hid with
    ⟨hstore, hsettled⟩ | ⟨hstore, hsettled⟩
  · rwa [hstore, hsettled]
  · rw [hstore]
    exact store.holds_write_of_id hsettled

/-- The end of a tick leaves the instances alone. -/
theorem instances_settle (u : Updater) (command : Command) {outcome : Outcome Unit}
    (h : store.Holds id stored) (hid : outcome.1.id = id) :
    (u.settle store id command before outcome).2.instances = store.instances := by
  rcases u.settle_eq_or_write command before h hid with ⟨hstore, -⟩ | ⟨hstore, -⟩
  · rw [hstore]
  · rw [hstore, Store.instances_write]

end Updater

end Rollout
