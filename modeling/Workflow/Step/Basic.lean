import Workflow.Step.Content
import Workflow.Uid

set_option autoImplicit false

namespace Workflow

open RecordReader (field)
open Readable

structure Step where
  id : Uid
  kind : StepKind
  content : StepContent
  description : Option String := none
  dependsOn : List Uid := []
  timestamp : Int64 := 0
  deriving DecidableEq, Repr

namespace Step

def ofContent (id : Uid) (content : StepContent) (timestamp : Int64) : Step :=
  { id, kind := content.kind, content, timestamp }

def label (step : Step) : String := step.description.getD step.id

def addDependency (step : Step) (uid : Uid) : Step :=
  { step with dependsOn := step.dependsOn ++ [uid] }

/-- The identifier is the key under which a script has the step, and is not written again. -/
def wire (step : Step) : Json :=
  .object ([
    ("context", .string step.kind.name),
    ("content", step.content.wire)] ++
    (match step.description with
      | some description => [("description", .string description)]
      | none => []) ++ [
    ("depends_on", .array (step.dependsOn.map .string)),
    ("timestamp", .ofInt step.timestamp.toInt)])

structure Raw where
  id : Uid
  kind : StepKind
  content : Json
  description : Option String
  dependsOn : List Uid
  timestamp : Int64

structure Draft where
  id : Uid := ""
  kind : Option StepKind := none
  content : Option Json := none
  description : Option String := none
  dependsOn : List Uid := []
  timestamp : Int64 := 0

def reader {α : Type} [Readable α] : RecordReader α Draft Raw where
  fields := [
    field "id" readString fun id draft => { draft with id },
    field "context" StepKind.read fun kind draft => { draft with kind := some kind },
    field "content" readValue fun content draft => { draft with content := some content },
    field "description" (readOption readString) fun description draft => { draft with description },
    field "depends_on" (readList readString) fun dependsOn draft => { draft with dependsOn },
    field "timestamp" readInt64 fun timestamp draft => { draft with timestamp }]
  blank := {}
  finish form draft := do
    let kind ← form.require 1 "context" draft.kind
    let content ← form.require 2 "content" draft.content
    return {
      id := draft.id, kind, content
      description := draft.description
      dependsOn := draft.dependsOn
      timestamp := draft.timestamp }

def Raw.step (raw : Raw) : Except Fault Step :=
  match StepContent.read raw.kind raw.content with
  | .ok content =>
    .ok {
      id := raw.id, kind := raw.kind, content
      description := raw.description
      dependsOn := raw.dependsOn
      timestamp := raw.timestamp }
  | .error cause => .error (.content raw.kind.name cause)

def read {α : Type} [Readable α] (a : α) : Except Fault Step := do
  let raw ← reader.read a
  raw.step

end Step

end Workflow
