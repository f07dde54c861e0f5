set_option autoImplicit false

namespace Workflow

abbrev Uid := String

inductive WorkKind where
  | step
  | operation
  | condition
  deriving DecidableEq, Repr

namespace WorkKind

def all : List WorkKind := [.step, .operation, .condition]

/-- No opening is the start of another one, so an identifier has at most one kind. -/
def opening : WorkKind → String
  | .step => "step_"
  | .operation => "op_"
  | .condition => "cond_"

def name : WorkKind → String
  | .step => "Step"
  | .operation => "Operation"
  | .condition => "Condition"

def opens (kind : WorkKind) (uid : Uid) : Bool := kind.opening.toList.isPrefixOf uid.toList

def of? (uid : Uid) : Option WorkKind := all.find? fun kind => kind.opens uid

end WorkKind

def Uid.isWork (uid : Uid) : Bool :=
  match WorkKind.of? uid with
  | some .step | some .operation => true
  | _ => false

end Workflow
