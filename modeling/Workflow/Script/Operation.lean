import Workflow.Script.Condition

set_option autoImplicit false

namespace Workflow

open RecordReader (field)
open Readable

structure Conditional where
  id : Uid := ""
  critical : Bool := true
  dependsOn : List Uid := []
  conditions : Table ConditionRow
  /-- The conditions that are evaluated in turn. -/
  order : List Uid
  deriving DecidableEq, Repr

namespace Conditional

def typeName : String := "conditional"

def wire (operation : Conditional) : Json :=
  .object [
    ("operationType", .string typeName),
    ("id", .string operation.id),
    ("critical", .bool operation.critical),
    ("depends_on", .array (operation.dependsOn.map .string)),
    ("conditions", .ofTable (operation.conditions.map fun _ row => row.wire)),
    ("order", .array (operation.order.map .string))]

structure Draft where
  id : Uid := ""
  critical : Bool := true
  dependsOn : List Uid := []
  conditions : Option (Table ConditionRow) := none
  order : Option (List Uid) := none

def reader : RecordReader Json Draft Conditional where
  fields := [
    field "id" readString fun id draft => { draft with id },
    field "critical" readBool fun critical draft => { draft with critical },
    field "depends_on" (readList readString) fun dependsOn draft => { draft with dependsOn },
    field "conditions" (readTable ConditionRow.reader.read) fun conditions draft =>
      { draft with conditions := some conditions },
    field "order" (readList readString) fun order draft => { draft with order := some order }]
  blank := {}
  finish form draft := do
    let conditions ← form.require 3 "conditions" draft.conditions
    let order ← form.require 4 "order" draft.order
    return {
      id := draft.id, critical := draft.critical, dependsOn := draft.dependsOn, conditions, order }

end Conditional

structure Unsupported where
  id : Uid
  type : String
  body : Json
  deriving DecidableEq, Repr

def Unsupported.dependsOn (operation : Unsupported) : List Uid :=
  match (operation.body.field? "depends_on").bind Json.array? with
  | some items => items.filterMap Json.string?
  | none => []

inductive Operation where
  | conditional (operation : Conditional)
  | unsupported (operation : Unsupported)
  deriving DecidableEq, Repr

namespace Operation

def id : Operation → Uid
  | .conditional operation => operation.id
  | .unsupported operation => operation.id

def withId (uid : Uid) : Operation → Operation
  | .conditional operation => .conditional { operation with id := uid }
  | .unsupported operation => .unsupported { operation with id := uid }

def type : Operation → String
  | .conditional _ => Conditional.typeName
  | .unsupported operation => operation.type

def dependsOn : Operation → List Uid
  | .conditional operation => operation.dependsOn
  | .unsupported operation => operation.dependsOn

def conditional? : Operation → Option Conditional
  | .conditional operation => some operation
  | .unsupported _ => none

def wire : Operation → Json
  | .conditional operation => operation.wire
  | .unsupported operation => operation.body

def ofJson (body : Json) : Except Fault Operation :=
  match (body.field? "operationType").bind Json.string? with
  | none => .error (.missingField "operationType")
  | some type =>
    if type = Conditional.typeName then do return .conditional (← Conditional.reader.read body)
    else
      let id := ((body.field? "id").bind Json.string?).getD ""
      .ok (.unsupported { id, type, body })

def read {α : Type} [Readable α] (a : α) : Except Fault Operation := do
  ofJson (← readValue a)

end Operation

end Workflow
