import Workflow.Authoring.Bundle
import Workflow.Files
import Workflow.Run.Execution
import Workflow.Script.Display
import Workflow.Validation.Rule

set_option autoImplicit false

namespace Workflow

inductive FlowError where
  | invalid (findings : List Finding)
  | json (fault : Fault)
  | file (path : String) (failure : ReadFailure)
  | payload (reason : String)
  deriving DecidableEq, Repr

def FlowError.message : FlowError → String
  | .invalid findings => Finding.summary findings
  | .json fault => "Failed to (de)serialize script JSON: " ++ fault.message
  | .file path failure =>
    "Could not access script file '" ++ path ++ "': " ++ failure.message
  | .payload reason => "Invalid demoswork transaction payload: " ++ reason

structure Flow where
  script : Script := {}
  results : Table Json := ∅
  records : List TraceRecord := []

namespace Flow

/-- A new workflow for a script whose entries get their keys as identifiers. -/
def ofScript (script : Script) : Flow where
  script := script.restoreIds

/-- Takes in an operation with all that it brings along, and lists it unless it is listed. -/
def push (flow : Flow) (bundle : Bundle) : Flow :=
  { flow with
    script := {
      order := (flow.script.order.insert bundle.id).1
      operations := (flow.script.operations.merge bundle.operations).insert bundle.id
        (.conditional bundle.operation)
      steps := flow.script.steps.merge bundle.steps } }

def pushAll (flow : Flow) (bundles : List Bundle) : Flow := bundles.foldl push flow

def validate (flow : Flow) : Except FlowError Unit :=
  if flow.script.isValid then .ok () else .error (.invalid (flow.script.issues.map Issue.finding))

/-- The wire form, if the script is valid. -/
def toWire (flow : Flow) : Except FlowError Json := do
  flow.validate
  return flow.script.wire

def toText (flow : Flow) : Except FlowError String := do
  return (← flow.toWire).pretty 0

def load (value : Json) : Except FlowError Flow :=
  match Script.read value with
  | .ok script => .ok (ofScript script)
  | .error fault => .error (.json fault)

def loadText (text : String) : Except FlowError Flow :=
  match readText Script.read text with
  | .ok script => .ok (ofScript script)
  | .error fault => .error (.json fault)

def loadFile (files : Files) (path : String) : Except FlowError Flow :=
  match files path with
  | .ok text => loadText text
  | .error failure => .error (.file path failure)

def transactionType : String := "demoswork"

def payload (flow : Flow) : Except FlowError Json := do
  return .array [.string transactionType, ← flow.toWire]

def loadPayload (data : Json) : Except FlowError Flow :=
  match data with
  | .array [.string type, script] =>
    if type = transactionType then load script
    else .error (.payload ("unexpected transaction type '" ++ type ++ "'"))
  | .array _ => .error (.payload "expected [\"demoswork\", <script>]")
  | _ => .error (.payload "expected a two-element array")

/-- Runs the script. A run that fails leaves the results and records of the one before. -/
def execute {σ : Type} (flow : Flow) (executor : Executor σ) (runners : σ) :
    Except RunError Flow × RunState σ :=
  match executor.execute flow.script runners with
  | (.ok (), state) => (.ok { flow with results := state.results, records := state.records }, state)
  | (.error error, state) => (.error error, state)

end Flow

end Workflow
