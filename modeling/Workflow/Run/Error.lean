import Workflow.Step.Content
import Workflow.Uid

set_option autoImplicit false

namespace Workflow

inductive RunError where
  | missingOperation (uid : Uid)
  | unsupportedOperation (uid : Uid) (type : String)
  | missingCondition (operation condition : Uid)
  | missingWork (work referencedBy : Uid)
  | cyclicWork (uid : Uid)
  | depthExceeded (uid : Uid) (limit : Nat)
  | unresolvedReference (owner : Uid)
  | unresolvedField (owner : Uid) (key : String)
  | noRunner (kind : StepKind)
  | step (uid : Uid) (cause : String)
  deriving DecidableEq, Repr

def RunError.message : RunError → String
  | .missingOperation uid =>
    "Operation '" ++ uid ++ "' is listed in the operation order but not found in the script"
  | .unsupportedOperation uid type =>
    "Operation '" ++ uid ++ "' has an unsupported operation type: '" ++ type ++ "'"
  | .missingCondition operation condition =>
    "Condition '" ++ condition ++ "' is not defined in operation '" ++ operation ++ "'"
  | .missingWork work referencedBy =>
    "Work '" ++ work ++ "' referenced by '" ++ referencedBy ++ "' is not defined in the script"
  | .cyclicWork uid => "Work '" ++ uid ++ "' was re-entered while still executing"
  | .depthExceeded uid limit =>
    "Nesting depth limit of " ++ toString limit ++ " exceeded while executing '" ++ uid ++ "'"
  | .unresolvedReference owner =>
    "Reference to '" ++ owner ++ "' cannot be resolved: it has not produced a result yet"
  | .unresolvedField owner key =>
    "Field '" ++ key ++ "' does not exist on the result of '" ++ owner ++ "'"
  | .noRunner kind => "No step runner registered for " ++ kind.name ++ " steps"
  | .step uid cause => "Step '" ++ uid ++ "' failed: " ++ cause

end Workflow
