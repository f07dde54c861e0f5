import Workflow.Authoring.Condition

set_option autoImplicit false

namespace Workflow

/-- What flattening gives, piece by piece: a row under its identifier, or work that rows refer to.
-/
inductive Lowered where
  | row (id : Uid) (row : ConditionRow)
  | work (work : WorkUnit)
  deriving Repr

namespace Expr

def operand? : Expr → Option Operand
  | .absent => none
  | .literal value => some (.static value)
  | .output reference => some reference.operand
  | .condition id _ _ _ _ => some (.internal id Operand.conditionKey)

/-- The pieces in their order: the action's work, those of the left and of the right side, and then
the row that refers to them all. -/
def lower : Expr → List Lowered
  | .absent | .literal _ => []
  | .output reference => [.work reference.work]
  | .condition id operator left right action =>
    (action.toList.map Lowered.work) ++ left.lower ++ right.lower ++
      [.row id {
        operator
        left := left.operand?
        right := right.operand?
        work := action.map WorkUnit.id }]

end Expr

namespace Lowered

def row? : Lowered → Option (Uid × ConditionRow)
  | .row id r => some (id, r)
  | .work _ => none

def work? : Lowered → Option WorkUnit
  | .row _ _ => none
  | .work unit => some unit

end Lowered

namespace Condition

def lower (condition : Condition) : List Lowered := condition.expr.lower

def rows (condition : Condition) : List (Uid × ConditionRow) :=
  condition.lower.filterMap Lowered.row?

def work (condition : Condition) : List WorkUnit := condition.lower.filterMap Lowered.work?

end Condition

end Workflow
