import Rollout.Store.Basic

/-!
# Operator requests

An operator may ask for a deployment to be canceled, or for a paused canary to be promoted.
The request is written to the record; a refused one leaves everything but the revision.
-/

namespace Rollout

/-- Why an operator request failed. -/
inductive OperatorError where
  | store (error : StoreError)
  | cannotCancel (id : String) (phase : Phase)
  | cannotPromote (id : String) (phase : Phase)
  deriving DecidableEq, Repr

/-- The error in words. -/
def OperatorError.message : OperatorError → String
  | .store error => error.message
  | .cannotCancel id phase => "deployment " ++ id ++ " is " ++ phase.name ++ ", cannot cancel"
  | .cannotPromote id phase =>
    "deployment " ++ id ++ " is " ++ phase.name ++ ", only PAUSED deployments can be promoted"

namespace Operator

/-- Writes what a request makes of the deployment under an id. A deployment that refuses is
written back as it is, with the next revision. -/
def submit (ask : Deployment → Option Deployment) (refusal : String → Phase → OperatorError)
    (store : Store) (id : String) : Except OperatorError Deployment × Store :=
  match store.deployment id with
  | .error e => (.error (.store e), store)
  | .ok d =>
    match store.update id fun d => (ask d).getD d with
    | .error e => (.error (.store e), store)
    | .ok (written, store) =>
      if (ask d).isSome then (.ok written, store)
      else (.error (refusal id written.phase), store)

/-- Asks for a deployment to be canceled; the next pass runs the cancel tick. -/
def requestCancel : Store → String → Except OperatorError Deployment × Store :=
  submit Deployment.requestCancel? .cannotCancel

/-- Releases a paused canary into the full rollout. -/
def promote : Store → String → Except OperatorError Deployment × Store :=
  submit Deployment.promote? .cannotPromote

end Operator

end Rollout
