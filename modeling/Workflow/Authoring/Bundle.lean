import Workflow.Authoring.Lowering

set_option autoImplicit false

namespace Workflow

namespace Bundle

def empty (id : Uid) : Bundle where
  operation := { id, conditions := ∅, order := [] }

def id (bundle : Bundle) : Uid := bundle.operation.id

def withCritical (bundle : Bundle) (critical : Bool) : Bundle :=
  { bundle with operation := { bundle.operation with critical } }

def addDependency (bundle : Bundle) (uid : Uid) : Bundle :=
  { bundle with
    operation := { bundle.operation with dependsOn := bundle.operation.dependsOn ++ [uid] } }

def addWork (bundle : Bundle) : WorkUnit → Bundle
  | .step step => { bundle with steps := bundle.steps.insert step.id step }
  | .operation nested =>
    { bundle with
      steps := bundle.steps.merge nested.steps
      operations := (bundle.operations.merge nested.operations).insert nested.id
        (.conditional nested.operation) }

def addCondition (bundle : Bundle) (condition : Condition) : Bundle :=
  let collected := condition.work.foldl addWork bundle
  { collected with
    operation := { collected.operation with
      conditions := collected.operation.conditions.insertAll condition.rows
      order := collected.operation.order ++ [condition.id] } }

def ofConditions (id : Uid) (conditions : List Condition) : Bundle :=
  conditions.foldl addCondition (empty id)

end Bundle

/-- A branch was opened and lacks its action. -/
structure OpenBranch where
  bundle : Bundle
  pending : Condition

structure Branches where
  bundle : Bundle

namespace Bundle

def ifCondition (bundle : Bundle) (condition : Condition) : OpenBranch := ⟨bundle, condition⟩

end Bundle

namespace OpenBranch

def andThen (branch : OpenBranch) (action : WorkUnit) : Branches :=
  ⟨branch.bundle.addCondition (branch.pending.withAction action)⟩

end OpenBranch

namespace Branches

def elifCondition (branches : Branches) (condition : Condition) : OpenBranch :=
  ⟨branches.bundle, condition⟩

/-- Closes the chain with a branch that holds whenever it is reached. -/
def otherwise (branches : Branches) (id : Uid) (action : WorkUnit) : Bundle :=
  branches.bundle.addCondition ((Condition.otherwise id).withAction action)

def close (branches : Branches) : Bundle := branches.bundle

end Branches

end Workflow
