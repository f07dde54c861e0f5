import Workflow.Step.Crosschain
import Workflow.Step.Web

set_option autoImplicit false

namespace Workflow

inductive StepKind where
  | crosschain
  | web
  | native
  deriving DecidableEq, Repr

namespace StepKind

def name : StepKind → String
  | .crosschain => "xm"
  | .web => "web2"
  | .native => "native"

def all : List StepKind := [.crosschain, .web, .native]

def read {α : Type} [Readable α] : α → Except Fault StepKind :=
  Readable.readVariant (all.map fun kind => (kind.name, kind))

def outputKeys : StepKind → List String
  | .crosschain => ["result", "hash"]
  | .web => ["statusCode", "payload"]
  | .native => ["result"]

end StepKind

inductive StepContent where
  | crosschain (script : Crosschain.Script)
  | web (request : Web.Request)
  | native (payload : Json)
  deriving DecidableEq, Repr

namespace StepContent

def kind : StepContent → StepKind
  | .crosschain _ => .crosschain
  | .web _ => .web
  | .native _ => .native

def wire : StepContent → Json
  | .crosschain script => script.wire
  | .web request => request.wire
  | .native payload => payload

def read (kind : StepKind) (payload : Json) : Except Fault StepContent :=
  match kind with
  | .crosschain => return .crosschain (← Crosschain.Script.reader.read payload)
  | .web => return .web (← Web.Request.reader.read payload)
  | .native => .ok (.native payload)

end StepContent

end Workflow
