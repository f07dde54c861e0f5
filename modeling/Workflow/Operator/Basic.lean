import Workflow.Wire.Reading

set_option autoImplicit false

namespace Workflow

inductive Operator where
  | equal
  | strictEqual
  | notEqual
  | strictNotEqual
  | greater
  | greaterOrEqual
  | less
  | lessOrEqual
  | isIn
  | notIn
  | and
  | or
  | not
  deriving DecidableEq, Repr

namespace Operator

def symbol : Operator → String
  | .equal => "=="
  | .strictEqual => "==="
  | .notEqual => "!="
  | .strictNotEqual => "!=="
  | .greater => ">"
  | .greaterOrEqual => ">="
  | .less => "<"
  | .lessOrEqual => "<="
  | .isIn => "in"
  | .notIn => "not in"
  | .and => "&&"
  | .or => "||"
  | .not => "not"

def all : List Operator :=
  [.equal, .strictEqual, .notEqual, .strictNotEqual, .greater, .greaterOrEqual, .less, .lessOrEqual,
    .isIn, .notIn, .and, .or, .not]

def ofSymbol? (symbol : String) : Option Operator := all.find? fun op => op.symbol = symbol

@[simp] theorem ofSymbol?_symbol (op : Operator) : ofSymbol? op.symbol = some op := by
  cases op <;> decide

def isUnary : Operator → Bool
  | .not => true
  | _ => false

def wire (op : Operator) : Json := .string op.symbol

def read {α : Type} [Readable α] : α → Except Fault Operator :=
  Readable.readVariant (all.map fun op => (op.symbol, op))

end Operator

end Workflow
