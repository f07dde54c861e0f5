import Workflow.Json.Equality
import Workflow.Uid
import Workflow.Wire.Reading

set_option autoImplicit false

namespace Workflow

inductive Operand where
  | static (value : Json)
  | internal (owner : Uid) (key : String)
  deriving DecidableEq, Repr

namespace Operand

open RecordReader (field)

def conditionKey : String := "output.result"

def owner? : Operand → Option Uid
  | .static _ => none
  | .internal owner _ => some owner

def text : Operand → String
  | .static value => value.compact
  | .internal owner key => "$" ++ owner ++ "." ++ key

def wire : Operand → Json
  | .static value => .object [("type", .string "static"), ("value", value)]
  | .internal owner key =>
    .object [("type", .string "internal"), ("workUID", .string owner), ("key", .string key)]

inductive Tag where
  | static
  | internal
  deriving DecidableEq, Repr

def Tag.known : List (String × Tag) := [("static", .static), ("internal", .internal)]

def staticReader : RecordReader Json (Option Json) Operand where
  fields := [field "value" Readable.readValue fun value _ => some value]
  blank := none
  finish form draft := do return .static (← form.require 0 "value" draft)

structure InternalDraft where
  owner : Option Uid := none
  key : Option String := none

def internalReader : RecordReader Json InternalDraft Operand where
  fields := [
    field "workUID" Readable.readString fun owner draft => { draft with owner := some owner },
    field "key" Readable.readString fun key draft => { draft with key := some key }]
  blank := {}
  finish form draft := do
    let owner ← form.require 0 "workUID" draft.owner
    let key ← form.require 1 "key" draft.key
    return .internal owner key

def read {α : Type} [Readable α] (a : α) : Except Fault Operand := do
  let (sort, content) ← Readable.readTagged "type" Tag.known a
  match sort with
  | .static => staticReader.read content
  | .internal => internalReader.read content

end Operand

end Workflow
