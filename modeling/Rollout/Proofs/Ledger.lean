import Rollout.Proofs.DatabaseFile
import Rollout.Proofs.StoreText
import Rollout.Proofs.TableMap

/-!
# The store as a pair of maps

A ledger is a map from ids to deployments and a map from keys to instances. Here is what each
transaction of a store answers on such a pair of maps, and what it leaves of them. The store gives
exactly these answers, whatever sequence of transactions it goes through from the beginning, and it
stands for the ledger that they leave.
-/

namespace Rollout

/-! ## Transactions -/

/-- What can be asked of a store. -/
inductive Transaction where
  | create (d : Deployment)
  | get (id : String)
  | list
  | commit (d : Deployment) (expected : UInt64)
  | update (id : String) (change : Deployment → Deployment)
  | delete (id : String)
  | putInstance (i : Instance)
  | listInstances (appId version : String)
  | deleteInstance (appId version : String) (index : UInt32)
  | deleteInstances (appId version : String)
  /-- The store is written to its file and read from it again. -/
  | reopen

/-- What a store answers. -/
inductive Reply where
  | done
  | failed (e : StoreError)
  | found (d? : Option Deployment)
  | deployments (ds : List Deployment)
  /-- The outcome of a commit, and the record of whoever asked for it afterwards. -/
  | committed (outcome : Except StoreError Unit) (d : Deployment)
  | updated (d : Deployment)
  | removed (present : Bool)
  | instances (is : List Instance)
  | removedMany (count : UInt32)

/-- The error in an answer. -/
def Reply.error? : Reply → Option StoreError
  | .failed e | .committed (.error e) _ => some e
  | _ => none

namespace Store

/-- The store that is read from the bytes of the file to which a store has been written. -/
def reopened (store : Store) : Option Store :=
  (String.fromUTF8? store.toText.toByteArray).bind ofText?

/-- Carries out a transaction. -/
def perform (store : Store) : Transaction → Reply × Store
  | .create d =>
    match store.create d with
    | .error e => (.failed e, store)
    | .ok after => (.done, after)
  | .get id =>
    match store.deployment? id with
    | .error e => (.failed e, store)
    | .ok d? => (.found d?, store)
  | .list =>
    match store.deploymentList with
    | .error e => (.failed e, store)
    | .ok ds => (.deployments ds, store)
  | .commit d expected =>
    match store.commit d expected with
    | .error e => (.committed (.error e) d, store)
    | .ok (written, after) => (.committed (.ok ()) written, after)
  | .update id change =>
    match store.update id change with
    | .error e => (.failed e, store)
    | .ok (written, after) => (.updated written, after)
  | .delete id =>
    let (present, after) := store.deleteDeployment id
    (.removed present, after)
  | .putInstance i => (.done, store.putInstance i)
  | .listInstances appId version =>
    match store.instanceList appId version with
    | .error e => (.failed e, store)
    | .ok is => (.instances is, store)
  | .deleteInstance appId version index =>
    let (present, after) := store.deleteInstance appId version index
    (.removed present, after)
  | .deleteInstances appId version =>
    let (count, after) := store.deleteInstances appId version
    (.removedMany count, after)
  | .reopen =>
    match store.reopened with
    | none => (.failed (.cannotOpen "the file is not a database"), store)
    | some after => (.done, after)

/-- Carries out transactions one after another. -/
def performAll (store : Store) : List Transaction → List Reply × Store
  | [] => ([], store)
  | t :: ts =>
    let answered := store.perform t
    let rest := answered.2.performAll ts
    (answered.1 :: rest.1, rest.2)

end Store

/-! ## Ledgers -/

/-- Two plain maps. -/
structure Ledger where
  /-- The deployments by their ids. -/
  deployments : String → Option Deployment
  /-- The instances by their keys. -/
  instances : String → Option Instance

namespace Ledger

/-- The ledger without entries. -/
def empty : Ledger :=
  ⟨fun _ => none, fun _ => none⟩

/-- The ledger with another deployment under an id, or none. -/
def setDeployment (ledger : Ledger) (id : String) (d? : Option Deployment) : Ledger :=
  { ledger with deployments := Function.update ledger.deployments id d? }

/-- The ledger with another instance under a key, or none. -/
def setInstance (ledger : Ledger) (key : String) (i? : Option Instance) : Ledger :=
  { ledger with instances := Function.update ledger.instances key i? }

/-- The instances of a version, which are those under the keys that begin as its keys do. -/
def ofVersion (ledger : Ledger) (appId version key : String) : Option Instance :=
  if (Instance.keyStart appId version).toList <+: key.toList then ledger.instances key else none

/-- The ledger without the instances of a version. -/
def withoutVersion (ledger : Ledger) (appId version : String) : Ledger :=
  { ledger with
    instances := fun key =>
      if (Instance.keyStart appId version).toList <+: key.toList then none
      else ledger.instances key }

/-- What a transaction answers on a ledger, and the ledger that it leaves. -/
inductive Step (ledger : Ledger) : Transaction → Reply → Ledger → Prop where
  | created (d : Deployment) (hfree : ledger.deployments d.id = none) :
    Step ledger (.create d) .done (ledger.setDeployment d.id (some d))
  | taken (d : Deployment) {stored : Deployment} (h : ledger.deployments d.id = some stored) :
    Step ledger (.create d) (.failed (.alreadyExists d.id)) ledger
  | got (id : String) : Step ledger (.get id) (.found (ledger.deployments id)) ledger
  | listed {entries : List (String × Deployment)} (h : Lists ledger.deployments entries) :
    Step ledger .list (.deployments (entries.map Prod.snd)) ledger
  | committed (d : Deployment) {stored : Deployment}
    (h : ledger.deployments d.id = some stored) :
    Step ledger (.commit d stored.revision)
      (.committed (.ok ()) { d with revision := stored.revision + 1 })
      (ledger.setDeployment d.id (some { d with revision := stored.revision + 1 }))
  | stale (d : Deployment) (expected : UInt64) {stored : Deployment}
    (h : ledger.deployments d.id = some stored) (hstale : stored.revision ≠ expected) :
    Step ledger (.commit d expected)
      (.committed (.error (.conflict d.id expected stored.revision)) d) ledger
  | uncommitted (d : Deployment) (expected : UInt64) (hfree : ledger.deployments d.id = none) :
    Step ledger (.commit d expected) (.committed (.error (.notFound d.id)) d) ledger
  | updated (id : String) (change : Deployment → Deployment) {stored : Deployment}
    (h : ledger.deployments id = some stored) :
    Step ledger (.update id change) (.updated (change stored).nextRevision)
      (ledger.setDeployment id (some (change stored).nextRevision))
  | unchanged (id : String) (change : Deployment → Deployment)
    (hfree : ledger.deployments id = none) :
    Step ledger (.update id change) (.failed (.notFound id)) ledger
  | deleted (id : String) :
    Step ledger (.delete id) (.removed (ledger.deployments id).isSome)
      (ledger.setDeployment id none)
  | put (i : Instance) :
    Step ledger (.putInstance i) .done (ledger.setInstance i.key (some i))
  | instancesListed (appId version : String) {entries : List (String × Instance)}
    (h : Lists (ledger.ofVersion appId version) entries) :
    Step ledger (.listInstances appId version) (.instances (entries.map Prod.snd)) ledger
  | instanceDeleted (appId version : String) (index : UInt32) :
    Step ledger (.deleteInstance appId version index)
      (.removed (ledger.instances (Instance.keyOf appId version index)).isSome)
      (ledger.setInstance (Instance.keyOf appId version index) none)
  | instancesDeleted (appId version : String) {entries : List (String × Instance)}
    (h : Lists (ledger.ofVersion appId version) entries) :
    Step ledger (.deleteInstances appId version) (.removedMany (UInt32.ofNat entries.length))
      (ledger.withoutVersion appId version)
  | reopened : Step ledger .reopen .done ledger

/-- What transactions answer on a ledger one after another, and the ledger that they leave. -/
inductive Steps : Ledger → List Transaction → List Reply → Ledger → Prop where
  | nil (ledger : Ledger) : Steps ledger [] [] ledger
  | cons {ledger next final : Ledger} {t : Transaction} {ts : List Transaction} {reply : Reply}
    {replies : List Reply} (hfirst : Step ledger t reply next)
    (hrest : Steps next ts replies final) : Steps ledger (t :: ts) (reply :: replies) final

end Ledger

/-! ## What a store stands for -/

namespace Store

/-- The tables of a store represent the maps of a ledger. -/
structure Represents (store : Store) (ledger : Ledger) : Prop where
  /-- The table of deployments has the texts of the one map. -/
  deployments : store.deployments.Represents Deployment.toText ledger.deployments
  /-- The table of instances has those of the other. -/
  instances : store.instances.Represents Instance.toText ledger.instances

variable {store : Store} {ledger next : Ledger} {t : Transaction} {reply : Reply}

/-- The empty store represents the ledger without entries. -/
theorem represents_empty : empty.Represents .empty :=
  ⟨Table.represents_empty _, Table.represents_empty _⟩

/-! ### Reading -/

/-- A store reads the deployment that the ledger has, if there is one. -/
theorem Represents.deployment?_eq (h : store.Represents ledger) (id : String) :
    store.deployment? id = .ok (ledger.deployments id) := by
  rw [deployment?, h.deployments id]
  cases ledger.deployments id with
  | none => rfl
  | some d => simp only [Option.map_some, readDeployment, Deployment.ofText?_toText, Except.map]

private theorem Represents.deployment_of_some {id : String} {d : Deployment}
    (h : store.Represents ledger) (hd : ledger.deployments id = some d) :
    store.deployment id = .ok d := by
  rw [deployment, h.deployment?_eq, hd]

private theorem Represents.deployment_of_none {id : String} (h : store.Represents ledger)
    (hnone : ledger.deployments id = none) : store.deployment id = .error (.notFound id) := by
  rw [deployment, h.deployment?_eq, hnone]

/-- Texts that were written are read back one after another. -/
theorem mapM_read {α β : Type} {read : β → Except StoreError α} {write : α → β}
    (hread : ∀ a, read (write a) = .ok a) (list : List α) :
    (list.map write).mapM read = .ok list := by
  induction list with
  | nil => rfl
  | cons a list ih =>
    rw [List.map_cons, List.mapM_cons, hread, ih]
    rfl

/-- A stored deployment is read back as it was. -/
theorem readDeployment_toText (d : Deployment) : readDeployment d.toText = .ok d := by
  rw [readDeployment, Deployment.ofText?_toText]

/-- A stored instance is read back as it was. -/
theorem readInstance_toText (i : Instance) : readInstance i.toText = .ok i := by
  rw [readInstance, Instance.ofText?_toText]

/-- The deployments are listed in the order of their ids. -/
theorem Represents.deploymentList_eq (h : store.Represents ledger) :
    ∃ entries, Lists ledger.deployments entries ∧
      store.deploymentList = .ok (entries.map Prod.snd) := by
  obtain ⟨entries, hentries, hlists⟩ := h.deployments.lists
  refine ⟨entries, hlists, ?_⟩
  rw [deploymentList, Table.values, hentries, List.map_map]
  rw [← mapM_read readDeployment_toText (entries.map Prod.snd), List.map_map]
  rfl

/-- What a scan finds for a version are its instances in the order of their keys. -/
theorem Represents.instanceEntries_eq (h : store.Represents ledger) (appId version : String) :
    ∃ entries, Lists (ledger.ofVersion appId version) entries ∧
      store.instanceEntries appId version = entries.map fun entry => (entry.1, entry.2.toText) := by
  let found : Table String :=
    ⟨store.instances.entries.filter (isKeyOf appId version ·.1), store.instances.sorted.filter _⟩
  have hpart : found.Represents Instance.toText fun key =>
      if isKeyOf appId version key then ledger.instances key else none :=
    h.instances.part rfl
  have hversion : (fun key => if isKeyOf appId version key then ledger.instances key else none) =
      ledger.ofVersion appId version := by
    funext key
    simp only [Ledger.ofVersion, isKeyOf_iff]
  rw [hversion] at hpart
  obtain ⟨entries, hentries, hlists⟩ := hpart.lists
  refine ⟨entries, hlists, ?_⟩
  rw [store.instanceEntries_eq, ← hentries]

/-- A store lists the instances of a version that the ledger has, in the order of their keys. -/
theorem Represents.instanceList_eq (h : store.Represents ledger) {appId version : String}
    {entries : List (String × Instance)} (hlists : Lists (ledger.ofVersion appId version) entries) :
    store.instanceList appId version = .ok (entries.map Prod.snd) := by
  obtain ⟨entries', hlists', hentries⟩ := h.instanceEntries_eq appId version
  obtain rfl := hlists.unique hlists'
  rw [instanceList, hentries, List.map_map,
    ← mapM_read readInstance_toText (entries.map Prod.snd), List.map_map]
  rfl

/-! ### Writing -/

/-- Writing a deployment under an id writes it there in the ledger. -/
theorem Represents.setDeployment (h : store.Represents ledger) (id : String) (d : Deployment) :
    Represents { store with deployments := store.deployments.insert id d.toText }
      (ledger.setDeployment id (some d)) :=
  ⟨h.deployments.insert id d, h.instances⟩

/-- Deleting the instances of a version takes them out of the ledger. -/
theorem Represents.deleteInstances (h : store.Represents ledger) (appId version : String) :
    (store.deleteInstances appId version).2.Represents (ledger.withoutVersion appId version) := by
  refine ⟨h.deployments, ?_⟩
  have hrest := h.instances.part (p := (!isKeyOf appId version ·))
    (store.entries_deleteInstances appId version)
  have hversion : (fun key => if !isKeyOf appId version key then ledger.instances key else none) =
      (ledger.withoutVersion appId version).instances := by
    funext key
    simp only [Ledger.withoutVersion, ← isKeyOf_iff]
    cases isKeyOf appId version key with
    | false => rfl
    | true => rfl
  rw [hversion] at hrest
  exact hrest

/-! ### Files -/

private theorem fromUTF8?_toByteArray (text : String) :
    String.fromUTF8? text.toByteArray = some text := by
  rw [String.fromUTF8?, dif_pos text.isValidUTF8]
  rfl

/-- A store is read from its file as it was. -/
theorem reopened_eq (store : Store) : store.reopened = some store := by
  rw [reopened, fromUTF8?_toByteArray, Option.bind_some, ofText?_toText]

/-! ## Transactions on a store -/

/-- A store answers a transaction as the ledger does that it stands for. -/
theorem Represents.perform (h : store.Represents ledger) (hstep : ledger.Step t reply next) :
    (store.perform t).1 = reply ∧ (store.perform t).2.Represents next := by
  cases hstep with
  | created d hfree =>
    have hfree : store.deployments.get? d.id = none := by rw [h.deployments, hfree, Option.map_none]
    simp only [Store.perform, create, hfree]
    exact ⟨trivial, h.setDeployment d.id d⟩
  | taken d hd =>
    have htaken := h.deployments d.id
    rw [hd, Option.map_some] at htaken
    simp only [Store.perform, create, htaken]
    exact ⟨trivial, h⟩
  | got id =>
    simp only [Store.perform, h.deployment?_eq]
    exact ⟨trivial, h⟩
  | listed hlists =>
    obtain ⟨entries, hlists', hlist⟩ := h.deploymentList_eq
    obtain rfl := hlists.unique hlists'
    simp only [Store.perform, hlist]
    exact ⟨trivial, h⟩
  | committed d hd =>
    simp only [Store.perform, commit, h.deployment_of_some hd, ne_eq, not_true_eq_false, if_false]
    exact ⟨trivial, h.setDeployment d.id _⟩
  | stale d expected hd hstale =>
    simp only [Store.perform, commit, h.deployment_of_some hd, if_pos hstale]
    exact ⟨trivial, h⟩
  | uncommitted d expected hfree =>
    simp only [Store.perform, commit, h.deployment_of_none hfree]
    exact ⟨trivial, h⟩
  | updated id change hd =>
    simp only [Store.perform, update, h.deployment_of_some hd]
    exact ⟨rfl, h.setDeployment id (change _).nextRevision⟩
  | unchanged id change hfree =>
    simp only [Store.perform, update, h.deployment_of_none hfree]
    exact ⟨trivial, h⟩
  | deleted id =>
    simp only [Store.perform, deleteDeployment, h.deployments id, Option.isSome_map]
    exact ⟨trivial, h.deployments.erase id, h.instances⟩
  | put i => exact ⟨rfl, h.deployments, h.instances.insert i.key i⟩
  | instancesListed appId version hlists =>
    simp only [Store.perform, h.instanceList_eq hlists]
    exact ⟨trivial, h⟩
  | instanceDeleted appId version index =>
    simp only [Store.perform, deleteInstance, h.instances _, Option.isSome_map]
    exact ⟨trivial, h.deployments, h.instances.erase _⟩
  | instancesDeleted appId version hlists =>
    refine ⟨?_, h.deleteInstances appId version⟩
    obtain ⟨entries, hlists', hentries⟩ := h.instanceEntries_eq appId version
    obtain rfl := hlists.unique hlists'
    simp only [Store.perform, Store.deleteInstances, hentries, List.length_map]
  | reopened =>
    simp only [Store.perform, reopened_eq]
    exact ⟨trivial, h⟩

/-- Every transaction is answered on the ledger. -/
theorem Represents.exists_step (h : store.Represents ledger) (t : Transaction) :
    ∃ reply next, ledger.Step t reply next := by
  cases t with
  | create d =>
    cases hd : ledger.deployments d.id with
    | none => exact ⟨_, _, .created d hd⟩
    | some stored => exact ⟨_, _, .taken d hd⟩
  | get id => exact ⟨_, _, .got id⟩
  | list =>
    obtain ⟨entries, hlists, -⟩ := h.deploymentList_eq
    exact ⟨_, _, .listed hlists⟩
  | commit d expected =>
    cases hd : ledger.deployments d.id with
    | none => exact ⟨_, _, .uncommitted d expected hd⟩
    | some stored =>
      by_cases hrevision : stored.revision = expected
      · subst hrevision
        exact ⟨_, _, .committed d hd⟩
      · exact ⟨_, _, .stale d expected hd hrevision⟩
  | update id change =>
    cases hd : ledger.deployments id with
    | none => exact ⟨_, _, .unchanged id change hd⟩
    | some stored => exact ⟨_, _, .updated id change hd⟩
  | delete id => exact ⟨_, _, .deleted id⟩
  | putInstance i => exact ⟨_, _, .put i⟩
  | listInstances appId version =>
    obtain ⟨entries, hlists, -⟩ := h.instanceEntries_eq appId version
    exact ⟨_, _, .instancesListed appId version hlists⟩
  | deleteInstance appId version index => exact ⟨_, _, .instanceDeleted appId version index⟩
  | deleteInstances appId version =>
    obtain ⟨entries, hlists, -⟩ := h.instanceEntries_eq appId version
    exact ⟨_, _, .instancesDeleted appId version hlists⟩
  | reopen => exact ⟨_, _, .reopened⟩

/-- A transaction that answers with an error leaves the store, whatever is in it, and a commit also
the record of whoever asked for it. -/
theorem perform_failed {e : StoreError} (h : (store.perform t).1.error? = some e) :
    (store.perform t).2 = store ∧
      ∀ d expected, t = .commit d expected → (store.perform t).1 = .committed (.error e) d := by
  cases t with
  | create | get | list | update | listInstances | reopen =>
    refine ⟨?_, by rintro _ _ ⟨⟩⟩
    unfold perform at h ⊢
    dsimp only at h ⊢
    split
    · rfl
    · next heq => simp [heq, Reply.error?] at h
  | commit d expected =>
    cases hcommit : store.commit d expected with
    | error cause =>
      simp only [perform, hcommit] at h ⊢
      refine ⟨trivial, ?_⟩
      rintro _ _ ⟨⟩
      rw [Option.some.inj h]
    | ok written =>
      simp only [perform, hcommit] at h
      cases h
  | delete | putInstance | deleteInstance | deleteInstances => cases h

/-! ## Runs -/

/-- A store answers transactions as the ledger does that it stands for. -/
theorem Represents.performAll {final : Ledger} {ts : List Transaction} {replies : List Reply}
    (h : store.Represents ledger) (hsteps : ledger.Steps ts replies final) :
    (store.performAll ts).1 = replies ∧ (store.performAll ts).2.Represents final := by
  induction hsteps generalizing store with
  | nil => exact ⟨rfl, h⟩
  | cons hfirst hrest ih =>
    obtain ⟨hreply, hnext⟩ := h.perform hfirst
    obtain ⟨hreplies, hfinal⟩ := ih hnext
    exact ⟨List.cons_eq_cons.mpr ⟨hreply, hreplies⟩, hfinal⟩

/-- Any transactions have answers on a ledger. -/
theorem Represents.exists_steps (h : store.Represents ledger) (ts : List Transaction) :
    ∃ replies final, ledger.Steps ts replies final := by
  induction ts generalizing store ledger with
  | nil => exact ⟨[], ledger, .nil ledger⟩
  | cons t ts ih =>
    obtain ⟨reply, next, hfirst⟩ := h.exists_step t
    obtain ⟨replies, final, hrest⟩ := ih (h.perform hfirst).2
    exact ⟨reply :: replies, final, .cons hfirst hrest⟩

/-- **The store is a pair of maps.** Whatever transactions a new store goes through, its answers are
the answers of two plain maps to them, and there are no others; in the end its tables have just what
the maps have. A transaction that answers with an error leaves both tables of any store, and a
commit the record that was to be committed. A database that is closed and opened again is the same
as before. -/
theorem answers_as_maps (ts : List Transaction) :
    (∃ final, Ledger.empty.Steps ts (empty.performAll ts).1 final) ∧
    (∀ replies final, Ledger.empty.Steps ts replies final →
      (empty.performAll ts).1 = replies ∧ (empty.performAll ts).2.Represents final) ∧
    (∀ (store : Store) (t : Transaction) (e : StoreError),
      (store.perform t).1.error? = some e → (store.perform t).2 = store ∧
        ∀ d expected, t = .commit d expected →
          (store.perform t).1 = .committed (.error e) d) ∧
    ∀ (disk held : Disk) (path : String) (opened store : Store),
      disk.openStore path = (.ok opened, held) →
        ((held.closeStore path store).openStore path).1 = .ok store := by
  refine ⟨?_, fun _ _ => represents_empty.performAll, fun _ _ _ => perform_failed,
    fun _ _ _ _ store h => Disk.openStore_closeStore h store⟩
  obtain ⟨replies, final, hsteps⟩ := represents_empty.exists_steps ts
  rw [(represents_empty.performAll hsteps).1]
  exact ⟨final, hsteps⟩

/-- A deployment is created once. A second one under its id and a commit with another revision are
refused, and it is listed as it was created, also from a database that was closed in between. -/
theorem answers_as_maps_taken :
    let d := Deployment.begin ⟨"web", "web", "2", "1", 1, 1, none⟩ 0
    let disk : Disk := ⟨[], []⟩
    (empty.performAll [.create d, .create d, .commit d 7, .reopen, .list]).1 =
        [.done, .failed (.alreadyExists "web"), .committed (.error (.conflict "web" 7 0)) d, .done,
          .deployments [d]] ∧
      ((empty.write d).perform (.create d)).2 = empty.write d ∧
      (((disk.openStore "web").2.closeStore "web" (empty.write d)).openStore "web").1 =
        .ok (empty.write d) := by
  intro d disk
  obtain ⟨-, hanswers, hfailed, hreopened⟩ :=
    answers_as_maps [.create d, .create d, .commit d 7, .reopen, .list]
  have hstored : (Ledger.empty.setDeployment d.id (some d)).deployments d.id = some d := by
    simp only [Ledger.setDeployment, Function.update_self]
  have hlists : Lists (Ledger.empty.setDeployment d.id (some d)).deployments [(d.id, d)] := by
    refine ⟨List.pairwise_singleton _ _, fun key a => ?_⟩
    simp only [Ledger.setDeployment, Ledger.empty, Function.update_apply]
    by_cases hkey : key = d.id
    · simp [hkey, eq_comm]
    · simp [hkey]
  have htaken : ((empty.write d).perform (.create d)).1 = .failed (.alreadyExists d.id) := by
    have htext := (empty.holds_write d).text
    simp only [perform, create, htext]
  have hopens : (disk.openStore "web").1.toBool = true := by
    have hspelled : Path.ofText "web" = ⟨false, ["web"], false⟩ := by decide +kernel
    have hplace : disk.place "web" = .ok ["web"] := by
      rw [Disk.place_of_spelled (by simp) (by decide +kernel) (by decide +kernel) hspelled]
      rfl
    unfold Disk.openStore
    rw [hplace, hspelled]
    rfl
  refine ⟨?_, (hfailed _ _ _ (congrArg Reply.error? htaken)).1, ?_⟩
  · exact (hanswers _ _ (.cons (.created d rfl) (.cons (.taken d hstored)
      (.cons (.stale d 7 hstored (by decide)) (.cons .reopened (.cons (.listed hlists)
        (.nil _))))))).1
  · rcases disk.openStore_cases "web" with ⟨e, herror⟩ | ⟨place, -, -, hok⟩
    · rw [herror] at hopens
      cases hopens
    · rw [hok]
      exact hreopened _ _ _ _ _ hok

end Store

end Rollout
