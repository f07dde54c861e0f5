import Workflow.Json.Equality
import Workflow.Script.Operation
import Workflow.Script.Order
import Workflow.Step.Basic

set_option autoImplicit false

namespace Workflow

open RecordReader (field)
open Readable

structure Script where
  order : OperationOrder := .empty
  operations : Table Operation := ∅
  steps : Table Step := ∅
  deriving DecidableEq, Repr

namespace Script

def restoreIds (script : Script) : Script where
  order := script.order
  operations := script.operations.map Operation.withId
  steps := script.steps.map fun uid step => { step with id := uid }

def containsWork (script : Script) (uid : Uid) : Bool :=
  match WorkKind.of? uid with
  | some .step => script.steps.contains uid
  | some .operation => script.operations.contains uid
  | _ => script.steps.contains uid || script.operations.contains uid

def conditionals (script : Script) : List (Uid × Conditional) :=
  script.operations.entries.filterMap fun entry =>
    entry.2.conditional?.map fun operation => (entry.1, operation)

theorem mem_conditionals_iff {script : Script} {uid : Uid} {operation : Conditional} :
    (uid, operation) ∈ script.conditionals ↔
      script.operations.get? uid = some (.conditional operation) := by
  rw [Table.get?_eq_some_iff, conditionals, List.mem_filterMap]
  constructor
  · rintro ⟨⟨key, entry⟩, hmem, heq⟩
    cases entry with
    | conditional found =>
      simp only [Operation.conditional?, Option.map_some, Option.some.injEq, Prod.mk.injEq] at heq
      obtain ⟨rfl, rfl⟩ := heq
      exact hmem
    | unsupported found => simp [Operation.conditional?] at heq
  · intro hmem
    exact ⟨_, hmem, rfl⟩

def rows (script : Script) : List ConditionRow :=
  script.conditionals.flatMap fun entry => entry.2.conditions.values

theorem mem_rows {script : Script} {uid condition : Uid} {operation : Conditional}
    {row : ConditionRow} (hoperation : script.operations.get? uid = some (.conditional operation))
    (hrow : operation.conditions.get? condition = some row) : row ∈ script.rows :=
  List.mem_flatMap.mpr ⟨(uid, operation), mem_conditionals_iff.mpr hoperation,
    List.mem_map.mpr ⟨(condition, row), Table.get?_eq_some_iff.mp hrow, rfl⟩⟩

def wire (script : Script) : Json :=
  .object [
    ("operationOrder", script.order.wire),
    ("operations", .ofTable (script.operations.map fun _ operation => operation.wire)),
    ("steps", .ofTable (script.steps.map fun _ step => step.wire))]

structure Draft where
  order : Option OperationOrder := none
  operations : Table Operation := ∅
  steps : Table Step := ∅

def reader {α : Type} [Readable α] : RecordReader α Draft Script where
  fields := [
    field "operationOrder" OperationOrder.read fun order draft =>
      { draft with order := some order },
    field "operations" (readTable Operation.read) fun operations draft => { draft with operations },
    field "steps" (readTable Step.read) fun steps draft => { draft with steps }]
  blank := {}
  finish form draft := do
    let order ← form.require 0 "operationOrder" draft.order
    return { order, operations := draft.operations, steps := draft.steps }

def read {α : Type} [Readable α] (a : α) : Except Fault Script := reader.read a

/-- Equal wire forms up to the signs of zeros, and equal identifiers, which the wire form of a step
does not hold. -/
def same (a b : Script) : Bool :=
  a.wire.same b.wire && decide (a.steps.values.map Step.id = b.steps.values.map Step.id) &&
    decide (a.operations.values.map Operation.id = b.operations.values.map Operation.id)

end Script

end Workflow
