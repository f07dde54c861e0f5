import Workflow.Json.Equality
import Workflow.Wire.Reading

set_option autoImplicit false

namespace Workflow.Crosschain

open RecordReader (field)
open Readable

structure Task where
  type : String
  params : Option Json
  signedPayloads : List Json
  deriving DecidableEq, Repr

structure Operation where
  chain : String
  subchain : String
  isEvm : Bool
  rpc : Option String
  task : Task
  deriving DecidableEq, Repr

structure Script where
  operations : Table Operation
  order : List String
  deriving DecidableEq, Repr

namespace Task

def wire (task : Task) : Json :=
  .object [
    ("type", .string task.type),
    ("params", task.params.getD .null),
    ("signedPayloads", .array task.signedPayloads)]

structure Draft where
  type : Option String := none
  params : Option Json := none
  signedPayloads : List Json := []

def reader : RecordReader Json Draft Task where
  fields := [
    field "type" readString fun type draft => { draft with type := some type },
    field "params" (readOption readValue) fun params draft => { draft with params },
    field "signedPayloads" (readList readValue) fun signedPayloads draft =>
      { draft with signedPayloads }]
  blank := {}
  finish form draft := do
    let type ← form.require 0 "type" draft.type
    return { type, params := draft.params, signedPayloads := draft.signedPayloads }

end Task

namespace Operation

def wire (operation : Operation) : Json :=
  .object [
    ("chain", .string operation.chain),
    ("subchain", .string operation.subchain),
    ("is_evm", .bool operation.isEvm),
    ("rpc", (operation.rpc.map Json.string).getD .null),
    ("task", operation.task.wire)]

structure Draft where
  chain : Option String := none
  subchain : Option String := none
  isEvm : Option Bool := none
  rpc : Option String := none
  task : Option Task := none

def reader : RecordReader Json Draft Operation where
  fields := [
    field "chain" readString fun chain draft => { draft with chain := some chain },
    field "subchain" readString fun subchain draft => { draft with subchain := some subchain },
    field "is_evm" readBool fun isEvm draft => { draft with isEvm := some isEvm },
    field "rpc" (readOption readString) fun rpc draft => { draft with rpc },
    field "task" Task.reader.read fun task draft => { draft with task := some task }]
  blank := {}
  finish form draft := do
    let chain ← form.require 0 "chain" draft.chain
    let subchain ← form.require 1 "subchain" draft.subchain
    let isEvm ← form.require 2 "is_evm" draft.isEvm
    let task ← form.require 4 "task" draft.task
    return { chain, subchain, isEvm, rpc := draft.rpc, task }

end Operation

namespace Script

def single (uid : String) (operation : Operation) : Script where
  operations := Table.ofList [(uid, operation)]
  order := [uid]

def wire (script : Script) : Json :=
  .object [
    ("operations", .ofTable (script.operations.map fun _ operation => operation.wire)),
    ("operations_order", .array (script.order.map .string))]

structure Draft where
  operations : Option (Table Operation) := none
  order : Option (List String) := none

def reader : RecordReader Json Draft Script where
  fields := [
    field "operations" (readTable Operation.reader.read) fun operations draft =>
      { draft with operations := some operations },
    field "operations_order" (readList readString) fun order draft =>
      { draft with order := some order }]
  blank := {}
  finish form draft := do
    let operations ← form.require 0 "operations" draft.operations
    let order ← form.require 1 "operations_order" draft.order
    return { operations, order }

end Script

end Workflow.Crosschain
