import Workflow.Authoring.Lowering
import Workflow.Run.Execution

/-!
What a condition means, told from its tree alone: the sides are asked from left to right as far as
they matter, the outcome is stored under the identifier of the condition, and if it holds its action
is done before anything else.
-/

set_option autoImplicit false

namespace Workflow

open Run

variable {σ : Type}

/-- Whether an operator holds between two sides. The right one is asked last, if at all. -/
def Operator.judge (operator : Operator) (left right : Run σ Json) : Run σ Bool := do
  let a ← left
  match operator with
  | .not => return !a.isTruthy
  | .and => if a.isTruthy then return (← right).isTruthy else return false
  | .or => if a.isTruthy then return true else return (← right).isTruthy
  | operator => return operator.apply a (← right)

def settle (id : Uid) (decision : Run σ Bool) : Run σ Bool := do
  let holds ← decision
  store id (.object [("output", .object [("result", .bool holds)])])
  return holds

def OutputRef.look (reference : OutputRef) : Run σ Json := do
  match reference.operand.resolve (← get).results with
  | .ok value => return value
  | .error error => throw error

/-- Calls the runner for the copy of a step that is held, and stores its output. -/
def Executor.perform (executor : Executor σ) (held : Step → Step) : WorkUnit → Run σ Unit
  | .step step => Engine.runStep ⟨executor, {}⟩ step.id (held step)
  | .operation _ => pure ()

namespace Expr

def isAbsent : Expr → Bool
  | .absent => true
  | _ => false

/-- Without operator a condition is decided by its left side, and without that it holds. -/
def decision (operator : Option Operator) (isAbsent : Bool) (left right : Run σ Json) :
    Run σ Bool :=
  match operator with
  | none => if isAbsent then pure true else do return (← left).isTruthy
  | some operator => operator.judge left right

def value (perform : WorkUnit → Run σ Unit) : Expr → Run σ Json
  | .absent => return .null
  | .literal value => return value
  | .output reference => reference.look
  | .condition id operator left right action => do
    let holds ← settle id
      (decision operator left.isAbsent (left.value perform) (right.value perform))
    if holds then action.forM perform
    return .bool holds

def ids : Expr → List Uid
  | .condition id _ left right _ => left.ids ++ right.ids ++ [id]
  | _ => []

def levels : Expr → Nat
  | .condition _ _ left right _ => max left.levels right.levels + 1
  | _ => 0

def actions : Expr → List WorkUnit
  | .condition _ _ left right action => action.toList ++ left.actions ++ right.actions
  | _ => []

def outputs : Expr → List OutputRef
  | .output reference => [reference]
  | .condition _ _ left right _ => left.outputs ++ right.outputs
  | _ => []

theorem levels_le_length_ids (e : Expr) : e.levels ≤ e.ids.length := by
  induction e with
  | absent | literal | output => exact Nat.le_refl 0
  | condition id operator left right action ihleft ihright =>
    simp only [levels, ids, List.length_append, List.length_singleton]
    omega

end Expr

namespace WorkUnit

def isStep : WorkUnit → Bool
  | .step _ => true
  | .operation _ => false

def copies : WorkUnit → List (Uid × Step)
  | .step s => [(s.id, s)]
  | .operation bundle => bundle.steps.entries

end WorkUnit

namespace Condition

def nesting (condition : Condition) : Nat := max condition.left.levels condition.right.levels

/-- The conditions are told apart by identifiers of their kind. -/
structure Labelled (condition : Condition) : Prop where
  kinds : ∀ id ∈ condition.expr.ids, WorkKind.of? id = some .condition
  nodup : condition.expr.ids.Nodup

/-- Moreover nothing whose output is read shares such an identifier, and what the conditions run are
steps that are not named like operations. -/
structure Regular (condition : Condition) : Prop extends condition.Labelled where
  outputs : ∀ reference ∈ condition.expr.outputs, reference.owner ∉ condition.expr.ids
  actions : ∀ unit ∈ condition.expr.actions,
    unit.isStep ∧ WorkKind.of? unit.id ≠ some .operation

def copies (condition : Condition) : List (Uid × Step) := condition.work.flatMap WorkUnit.copies

/-- Of several copies of a step the one that is collected last. -/
def held (condition : Condition) (step : Step) : Step :=
  (condition.copies.reverse.lookup step.id).getD step

def Consistent (condition : Condition) : Prop :=
  ∀ a ∈ condition.copies, ∀ b ∈ condition.copies, a.1 = b.1 → a = b

instance (condition : Condition) : Decidable condition.Consistent :=
  inferInstanceAs (Decidable (∀ a ∈ condition.copies, ∀ b ∈ condition.copies, a.1 = b.1 → a = b))

/-- The direct reading of an operation that lists the condition alone. -/
def meaning (condition : Condition) (operation : Uid) (perform : WorkUnit → Run σ Unit) :
    Run σ Unit := do
  let value ← condition.expr.value perform
  let matched := if value.isTruthy then [condition.id] else []
  store operation (.object [("output", .object [
    ("matched", .array (matched.map .string)), ("success", .bool true)])])

end Condition

end Workflow
