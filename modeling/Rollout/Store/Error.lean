import Rollout.Text.Numeral

/-!
# Errors of the store

What can go wrong when records are read or written. Each error has one wording.
-/

namespace Rollout

/-- Why an operation on the store failed. -/
inductive StoreError where
  /-- The database cannot be opened. -/
  | cannotOpen (detail : String)
  /-- Another handle, usually of another process, holds the database. -/
  | busy (path : String)
  | transaction (detail : String)
  | table (detail : String)
  | read (detail : String)
  | write (detail : String)
  | serialize (detail : String)
  /-- A stored text is no record. -/
  | deserialize (detail : String)
  | notFound (id : String)
  | alreadyExists (id : String)
  /-- The stored revision is not the one that was read before. -/
  | conflict (id : String) (expected found : UInt64)
  | invalidDeployment (reason : String)
  deriving DecidableEq, Repr

namespace StoreError

/-- The error in words. -/
def message : StoreError → String
  | .cannotOpen detail => "failed to open database: " ++ detail
  | .busy path => "database is in use by another process: " ++ path
  | .transaction detail => "transaction error: " ++ detail
  | .table detail => "table error: " ++ detail
  | .read detail => "read error: " ++ detail
  | .write detail => "write error: " ++ detail
  | .serialize detail => "serialization error: " ++ detail
  | .deserialize detail => "deserialization error: " ++ detail
  | .notFound id => "not found: " ++ id
  | .alreadyExists id => "already exists: " ++ id
  | .conflict id expected found =>
    "revision conflict on " ++ id ++ ": expected " ++ Text.decimal expected.toNat ++ ", found " ++
      Text.decimal found.toNat
  | .invalidDeployment reason => "invalid deployment: " ++ reason

end StoreError

end Rollout
