import Rollout.Deployment.Record
import Rollout.Instance
import Rollout.Store.Error
import Rollout.Store.Table

/-!
# The store

The store keeps the texts of deployments under their ids, and those of instances under keys
made of application, version and index. An operation that fails yields no new store, so a
failure never changes anything.
-/

namespace Rollout

/-- The two tables of stored texts. -/
structure Store where
  deployments : Table String
  instances : Table String

namespace Store

/-- The store without records. -/
def empty : Store :=
  ⟨.empty, .empty⟩

/-- There is a store without records. -/
instance : Inhabited Store :=
  ⟨empty⟩

/-! ## Deployments -/

/-- The deployment that a stored text holds. -/
def readDeployment (text : String) : Except StoreError Deployment :=
  match Deployment.ofText? text with
  | some d => .ok d
  | none => .error (.deserialize "the text is not a deployment record")

/-- Adds a deployment under its own id, which must be free. -/
def create (store : Store) (d : Deployment) : Except StoreError Store :=
  match store.deployments.get? d.id with
  | some _ => .error (.alreadyExists d.id)
  | none => .ok { store with deployments := store.deployments.insert d.id d.toText }

/-- The deployment under an id, if there is one. -/
def deployment? (store : Store) (id : String) : Except StoreError (Option Deployment) :=
  match store.deployments.get? id with
  | none => .ok none
  | some text => (readDeployment text).map some

/-- All deployments in the order of their ids, unless one cannot be read. -/
def deploymentList (store : Store) : Except StoreError (List Deployment) :=
  store.deployments.values.mapM readDeployment

/-- The deployment under an id, which has to be there. -/
def deployment (store : Store) (id : String) : Except StoreError Deployment :=
  match store.deployment? id with
  | .error e => .error e
  | .ok none => .error (.notFound id)
  | .ok (some d) => .ok d

/-- Writes a deployment under its own id, provided that the stored revision is still the
expected one. The written record has the next revision. -/
def commit (store : Store) (d : Deployment) (expected : UInt64) :
    Except StoreError (Deployment × Store) :=
  match store.deployment d.id with
  | .error e => .error e
  | .ok stored =>
    if stored.revision ≠ expected then .error (.conflict d.id expected stored.revision)
    else
      let written := { d with revision := expected + 1 }
      .ok (written, { store with deployments := store.deployments.insert d.id written.toText })

/-- Reads the deployment under an id, changes it and writes it back under the same id with the
next revision. -/
def update (store : Store) (id : String) (change : Deployment → Deployment) :
    Except StoreError (Deployment × Store) :=
  match store.deployment id with
  | .error e => .error e
  | .ok stored =>
    let changed := change stored
    let written := { changed with revision := changed.revision + 1 }
    .ok (written, { store with deployments := store.deployments.insert id written.toText })

/-- Removes the deployment under an id, and says whether there was one. -/
def deleteDeployment (store : Store) (id : String) : Bool × Store :=
  ((store.deployments.get? id).isSome,
    { store with deployments := store.deployments.erase id })

/-! ## Instances -/

/-- The instance that a stored text holds. -/
def readInstance (text : String) : Except StoreError Instance :=
  match Instance.ofText? text with
  | some i => .ok i
  | none => .error (.deserialize "the text is not an instance record")

/-- Whether a key begins as the keys of a version's instances do. -/
def isKeyOf (appId version key : String) : Bool :=
  (Instance.keyStart appId version).toList.isPrefixOf key.toList

/-- Writes an instance under its own key. -/
def putInstance (store : Store) (i : Instance) : Store :=
  { store with instances := store.instances.insert i.key i.toText }

/-- The entries of a version's instances in the order of their keys. They stand one after
another. -/
def instanceEntries (store : Store) (appId version : String) : List (String × String) :=
  store.instances.scan (Instance.keyStart appId version) (isKeyOf appId version)

/-- The instances of a version in the order of their keys, unless one cannot be read. -/
def instanceList (store : Store) (appId version : String) : Except StoreError (List Instance) :=
  ((store.instanceEntries appId version).map Prod.snd).mapM readInstance

/-- Removes the instance of a version with an index, and says whether there was one. -/
def deleteInstance (store : Store) (appId version : String) (index : UInt32) : Bool × Store :=
  let key := Instance.keyOf appId version index
  ((store.instances.get? key).isSome, { store with instances := store.instances.erase key })

/-- Removes all instances of a version one by one, and says how many there were. -/
def deleteInstances (store : Store) (appId version : String) : UInt32 × Store :=
  let keys := (store.instanceEntries appId version).map Prod.fst
  (UInt32.ofNat keys.length, { store with instances := keys.foldl Table.erase store.instances })

end Store

end Rollout
