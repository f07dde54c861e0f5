import Workflow.Operand
import Workflow.Operator.Basic

set_option autoImplicit false

namespace Workflow

open RecordReader (field)
open Readable

structure ConditionRow where
  operator : Option Operator := none
  left : Option Operand := none
  right : Option Operand := none
  work : Option Uid := none
  deriving DecidableEq, Repr

namespace ConditionRow

/-- A row without operator and value holds whenever it is reached. -/
def isElse (row : ConditionRow) : Bool := row.operator.isNone && row.left.isNone

def operands (row : ConditionRow) : List Operand := row.left.toList ++ row.right.toList

theorem mem_operands_of_left {row : ConditionRow} {operand : Operand}
    (h : row.left = some operand) : operand ∈ row.operands :=
  List.mem_append_left _ (Option.mem_toList.mpr h)

theorem mem_operands_of_right {row : ConditionRow} {operand : Operand}
    (h : row.right = some operand) : operand ∈ row.operands :=
  List.mem_append_right _ (Option.mem_toList.mpr h)

def owners (row : ConditionRow) : List Uid := row.operands.filterMap Operand.owner?

theorem mem_owners {row : ConditionRow} {owner : Uid} {key : String}
    (h : .internal owner key ∈ row.operands) : owner ∈ row.owners :=
  List.mem_filterMap.mpr ⟨_, h, rfl⟩

def wire (row : ConditionRow) : Json :=
  .object ([
    ("operator", (row.operator.map Operator.wire).getD .null),
    ("value_a", (row.left.map Operand.wire).getD .null),
    ("value_b", (row.right.map Operand.wire).getD .null)] ++
    (match row.work with
      | some work => [("work", .string work)]
      | none => []))

structure Draft where
  operator : Option (Option Operator) := none
  left : Option (Option Operand) := none
  right : Option (Option Operand) := none
  work : Option Uid := none

def reader : RecordReader Json Draft ConditionRow where
  fields := [
    field "operator" (readOption Operator.read) fun operator draft =>
      { draft with operator := some operator },
    field "value_a" (readOption Operand.read) fun left draft => { draft with left := some left },
    field "value_b" (readOption Operand.read) fun right draft => { draft with right := some right },
    field "work" (readOption readString) fun work draft => { draft with work }]
  blank := {}
  finish form draft := do
    let operator ← form.optional 0 "operator" draft.operator
    let left ← form.optional 1 "value_a" draft.left
    let right ← form.optional 2 "value_b" draft.right
    return { operator, left, right, work := draft.work }

end ConditionRow

end Workflow
