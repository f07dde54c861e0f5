import Workflow.Script.Basic

set_option autoImplicit false

namespace Workflow

structure Finding where
  code : String
  message : String
  path : Option String := none
  deriving DecidableEq, Repr

def Finding.text (finding : Finding) : String :=
  finding.code ++ ": " ++ finding.message ++
    match finding.path with
    | some path => " (at " ++ path ++ ")"
    | none => ""

def Finding.summary (findings : List Finding) : String :=
  "Script validation failed (" ++ toString findings.length ++ " issues):" ++
    String.join (findings.zipIdx.map fun (finding, i) =>
      "\n  " ++ toString (i + 1) ++ ". " ++ finding.text)

inductive Dependent where
  | operation (uid : Uid)
  | step (uid : Uid) (label : String)
  deriving DecidableEq, Repr

def Dependent.name : Dependent → String
  | .operation uid => "Operation " ++ uid
  | .step _ label => "Step " ++ label

def Dependent.path : Dependent → String
  | .operation uid => "operations." ++ uid
  | .step uid _ => "steps." ++ uid

inductive Side where
  | left
  | right
  deriving DecidableEq, Repr

/-- Where an operand stands: its operation, with the identifier that the operation gives itself, the
condition and the side. -/
structure OperandPlace where
  operation : Uid
  operationId : Uid
  condition : Uid
  side : Side
  deriving DecidableEq, Repr

def conditionPath (operation condition : Uid) : String :=
  "operations." ++ operation ++ ".conditions." ++ condition

def OperandPlace.path (place : OperandPlace) : String :=
  conditionPath place.operation place.condition ++
    match place.side with
    | .left => ".value_a"
    | .right => ".value_b"

inductive Issue where
  | unusedStep (uid : Uid) (label : String)
  | invalidDependency (dependent : Dependent) (index : Nat) (uid : Uid)
  | missingDependency (dependent : Dependent) (index : Nat) (uid : Uid)
  | danglingWork (operation condition work : Uid)
  | danglingOperand (place : OperandPlace) (owner : Uid)
  | unknownField (place : OperandPlace) (owner : Uid) (key : String)
  | missingOperation (index : Nat) (uid : Uid)
  /-- An operation that neither stands in the order nor is the work of a condition. -/
  | unreachableOperation (uid : Uid)
  | missingCondition (operation : Uid) (index : Nat) (condition : Uid)
  | unsupportedOperation (uid : Uid) (type : String)
  deriving DecidableEq, Repr

namespace Issue

def code : Issue → String
  | .unusedStep .. => "ERR_SCRIPT_UNUSED_STEP"
  | .invalidDependency .. => "ERR_SCRIPT_INVALID_DEPENDENCY"
  | .missingDependency .. => "ERR_SCRIPT_MISSING_DEPENDENCY"
  | .danglingWork .. | .danglingOperand .. => "ERR_SCRIPT_DANGLING_REFERENCE"
  | .unknownField .. => "ERR_SCRIPT_UNKNOWN_OUTPUT_FIELD"
  | .missingOperation .. => "ERR_SCRIPT_MISSING_OPERATION"
  | .unreachableOperation .. => "ERR_SCRIPT_UNREACHABLE_OPERATION"
  | .missingCondition .. => "ERR_SCRIPT_MISSING_CONDITION"
  | .unsupportedOperation .. => "ERR_SCRIPT_UNSUPPORTED_OPERATION"

def message : Issue → String
  | .unusedStep _ label => "Step " ++ label ++ " not used in script"
  | .invalidDependency dependent _ uid =>
    dependent.name ++ " depends on an invalid work UID: " ++ uid
  | .missingDependency dependent _ uid =>
    dependent.name ++ " depends on a non-existent work UID: " ++ uid
  | .danglingWork operation condition work =>
    "Condition " ++ condition ++ " of operation " ++ operation ++ " runs " ++ work ++
      ", which is not defined in the script"
  | .danglingOperand place owner =>
    "Operation " ++ place.operationId ++ " reads from " ++ owner ++
      ", which is not defined in the script"
  | .unknownField place owner key =>
    "Operation " ++ place.operationId ++ " reads unknown field '" ++ key ++ "' of " ++ owner
  | .missingOperation _ uid => "Operation " ++ uid ++ " is ordered but not defined in the script"
  | .unreachableOperation uid =>
    "Operation " ++ uid ++ " is neither in the operation order nor run by any condition"
  | .missingCondition operation _ condition =>
    "Operation " ++ operation ++ " orders condition " ++ condition ++ ", which it does not define"
  | .unsupportedOperation uid type =>
    "Operation " ++ uid ++ " has unsupported operation type: " ++ type

def indexed (path : String) (index : Nat) : String := path ++ "[" ++ toString index ++ "]"

def path : Issue → String
  | .unusedStep uid _ => "steps." ++ uid
  | .invalidDependency dependent index _ | .missingDependency dependent index _ =>
    indexed (dependent.path ++ ".depends_on") index
  | .danglingWork operation condition _ => conditionPath operation condition ++ ".work"
  | .danglingOperand place _ | .unknownField place _ _ => place.path
  | .missingOperation index _ => indexed "operationOrder" index
  | .unreachableOperation uid => "operations." ++ uid
  | .missingCondition operation index _ => indexed ("operations." ++ operation ++ ".order") index
  | .unsupportedOperation uid _ => "operations." ++ uid ++ ".operationType"

def finding (issue : Issue) : Finding := ⟨issue.code, issue.message, some issue.path⟩

end Issue

end Workflow
