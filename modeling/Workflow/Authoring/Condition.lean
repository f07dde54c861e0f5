import Workflow.Script.Basic
import Workflow.Validation.Rule

set_option autoImplicit false

namespace Workflow

/-- A conditional operation with all the work that its conditions mention. -/
structure Bundle where
  operation : Conditional
  steps : Table Step := ∅
  operations : Table Operation := ∅
  deriving DecidableEq, Repr

inductive WorkUnit where
  | step (step : Step)
  | operation (bundle : Bundle)
  deriving DecidableEq, Repr

namespace WorkUnit

def id : WorkUnit → Uid
  | .step s => s.id
  | .operation bundle => bundle.operation.id

/-- The fields below `output` that can be read. -/
def outputKeys : WorkUnit → List String
  | .step s => s.kind.outputKeys
  | .operation _ => Conditional.outputKeys

def kindName : WorkUnit → String
  | .step s => s.kind.name
  | .operation _ => Conditional.typeName

end WorkUnit

/-- A field of the result of some work, which goes along with the reference. -/
structure OutputRef where
  work : WorkUnit
  field : String
  field_mem : field ∈ work.outputKeys
  deriving DecidableEq, Repr

namespace OutputRef

def owner (reference : OutputRef) : Uid := reference.work.id

def key (reference : OutputRef) : String := "output." ++ reference.field

def operand (reference : OutputRef) : Operand := .internal reference.owner reference.key

end OutputRef

structure UnknownOutput where
  work : Uid
  kind : String
  key : String
  available : String
  deriving DecidableEq, Repr

def UnknownOutput.message (error : UnknownOutput) : String :=
  "'" ++ error.key ++ "' is not an output of " ++ error.kind ++ " work '" ++ error.work ++
    "' (available: " ++ error.available ++ ")"

/-- The field that a key names, with or without `output.` in front. -/
def outputField (key : String) : String :=
  let opening := "output.".toList
  if opening.isPrefixOf key.toList then String.ofList (key.toList.drop opening.length) else key

def WorkUnit.output (work : WorkUnit) (key : String) : Except UnknownOutput OutputRef :=
  if h : outputField key ∈ work.outputKeys then .ok ⟨work, outputField key, h⟩
  else .error ⟨work.id, work.kindName, key, ", ".intercalate work.outputKeys⟩

/-- An operand before it is made a row entry. A condition may stand where a value may. -/
inductive Expr where
  | absent
  | literal (value : Json)
  | output (reference : OutputRef)
  | condition (id : Uid) (operator : Option Operator) (left right : Expr) (action : Option WorkUnit)
  deriving DecidableEq, Repr

/-- A comparison with the work to run when it holds. Without operator it is decided by its left side
alone, and without that it always holds. -/
structure Condition where
  id : Uid
  operator : Option Operator := none
  left : Expr := .absent
  right : Expr := .absent
  action : Option WorkUnit := none
  deriving DecidableEq, Repr

namespace Condition

/-- A comparison; a unary operator drops the right side. -/
def compare (id : Uid) (left : Expr) (operator : Operator) (right : Expr) : Condition where
  id
  operator := some operator
  left
  right := if operator.isUnary then .absent else right

def negation (id : Uid) (value : Expr) : Condition where
  id
  operator := some .not
  left := value

def precomputed (id : Uid) (value : Expr) : Condition where
  id
  left := value

def otherwise (id : Uid) : Condition where
  id

def withAction (condition : Condition) (action : WorkUnit) : Condition :=
  { condition with action := some action }

def isElse (condition : Condition) : Bool :=
  match condition.operator, condition.left with
  | none, .absent => true
  | _, _ => false

def expr (condition : Condition) : Expr :=
  .condition condition.id condition.operator condition.left condition.right condition.action

end Condition

end Workflow
