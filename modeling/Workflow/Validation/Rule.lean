import Workflow.Validation.Issue

set_option autoImplicit false

namespace Workflow

def Conditional.outputKeys : List String := ["success", "matched"]

/-- The first segment below `output`, empty for a key that does not start there. -/
def Operand.outputHead (key : String) : String :=
  let opening := "output.".toList
  if opening.isPrefixOf key.toList then
    String.ofList ((key.toList.drop opening.length).takeWhile (· ≠ '.'))
  else ""

inductive Rule where
  | usedSteps
  | dependencies
  | references
  | order
  | operationKind
  deriving DecidableEq, Repr

namespace Rule

def all : List Rule := [.usedSteps, .dependencies, .references, .order, .operationKind]

def name : Rule → String
  | .usedSteps => "unused-step"
  | .dependencies => "dependency-integrity"
  | .references => "dangling-reference"
  | .order => "order-integrity"
  | .operationKind => "operation-kind"

def ofName? (name : String) : Option Rule := all.find? fun rule => rule.name = name

def usesStep (uid : Uid) (row : ConditionRow) : Bool :=
  WorkKind.of? uid = some .step && uid ∈ row.work.toList ++ row.owners

def unusedSteps (script : Script) : List Issue :=
  script.steps.entries.filterMap fun (uid, step) =>
    if script.rows.any (usesStep uid) then none
    else some (.unusedStep uid (step.description.getD uid))

/-- A dependency can be both invalid and missing. -/
def brokenDependencies (script : Script) (dependent : Dependent) (uids : List Uid) : List Issue :=
  uids.zipIdx.flatMap fun (uid, i) =>
    (if uid.isWork then [] else [.invalidDependency dependent i uid]) ++
    (if script.steps.contains uid || script.operations.contains uid then []
      else [.missingDependency dependent i uid])

def dependencyIssues (script : Script) : List Issue :=
  (script.operations.entries.flatMap fun (uid, operation) =>
    brokenDependencies script (.operation uid) operation.dependsOn) ++
  (script.steps.entries.flatMap fun (uid, step) =>
    brokenDependencies script (.step uid (step.description.getD uid)) step.dependsOn)

/-- Whether the owner of an operand gives the field that is read, `none` if there is no such owner.
-/
def exposes? (script : Script) (operation : Conditional) (owner : Uid) (key : String) :
    Option Bool :=
  match WorkKind.of? owner with
  | some .condition =>
    if operation.conditions.contains owner then some (key = Operand.conditionKey) else none
  | some .step =>
    (script.steps.get? owner).map fun step => step.kind.outputKeys.contains (Operand.outputHead key)
  | some .operation =>
    if script.operations.contains owner then
      some (Conditional.outputKeys.contains (Operand.outputHead key))
    else none
  | none => none

def brokenOperand (script : Script) (operation : Conditional) (place : OperandPlace) :
    Option Operand → List Issue
  | some (.internal owner key) =>
    match exposes? script operation owner key with
    | none => [.danglingOperand place owner]
    | some false => [.unknownField place owner key]
    | some true => []
  | _ => []

def brokenWork (script : Script) (operation condition : Uid) : Option Uid → List Issue
  | some work =>
    if work.isWork && script.containsWork work then [] else [.danglingWork operation condition work]
  | none => []

def brokenReferences (script : Script) (uid : Uid) (operation : Conditional) (condition : Uid)
    (row : ConditionRow) : List Issue :=
  brokenWork script uid condition row.work ++
  brokenOperand script operation ⟨uid, operation.id, condition, .left⟩ row.left ++
  brokenOperand script operation ⟨uid, operation.id, condition, .right⟩ row.right

def referenceIssues (script : Script) : List Issue :=
  script.conditionals.flatMap fun (uid, operation) =>
    operation.conditions.entries.flatMap fun (condition, row) =>
      brokenReferences script uid operation condition row

def orderIssues (script : Script) : List Issue :=
  (script.order.uids.zipIdx.filterMap fun (uid, i) =>
    if script.operations.contains uid then none else some (.missingOperation i uid)) ++
  (script.operations.keys.filterMap fun uid =>
    if script.order.contains uid || script.rows.any (fun row => row.work = some uid) then none
    else some (.unreachableOperation uid)) ++
  (script.conditionals.flatMap fun (uid, operation) =>
    operation.order.zipIdx.filterMap fun (condition, i) =>
      if operation.conditions.contains condition then none
      else some (.missingCondition uid i condition))

def kindIssues (script : Script) : List Issue :=
  script.operations.entries.filterMap fun (uid, operation) =>
    match operation with
    | .unsupported operation => some (.unsupportedOperation uid operation.type)
    | .conditional _ => none

def check : Rule → Script → List Issue
  | .usedSteps => unusedSteps
  | .dependencies => dependencyIssues
  | .references => referenceIssues
  | .order => orderIssues
  | .operationKind => kindIssues

end Rule

namespace Script

def check (script : Script) (rules : List Rule) : List Issue :=
  rules.flatMap fun rule => rule.check script

/-- All that is wrong with a script. -/
def issues (script : Script) : List Issue := script.check Rule.all

def isValid (script : Script) : Bool := script.issues.isEmpty

end Script

end Workflow
