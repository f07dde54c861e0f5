import Workflow.Operator.Comparison
import Workflow.Uid

set_option autoImplicit false

namespace Workflow

inductive Trace where
  | binary (operator : Operator) (left right : Trace) (outcome : Bool)
  | unary (operator : Operator) (child : Trace) (outcome : Bool)
  /-- A condition without operator, decided by its value alone. -/
  | precomputed (value : Trace) (outcome : Bool)
  | otherwise
  | leaf (source : String) (value : Json)
  /-- An operand that could not change the outcome. -/
  | notEvaluated
  deriving DecidableEq, Repr

namespace Trace

def value : Trace → Json
  | .binary _ _ _ outcome | .unary _ _ outcome | .precomputed _ outcome => .bool outcome
  | .otherwise => .bool true
  | .leaf _ value => value
  | .notEvaluated => .null

def holds (trace : Trace) : Bool := trace.value.isTruthy

def nullLeaf : Trace := .leaf "null" .null

end Trace

def Operator.precedence : Operator → Nat
  | .or => 1
  | .and => 2
  | .equal | .strictEqual | .notEqual | .strictNotEqual | .isIn | .notIn => 4
  | .greater | .greaterOrEqual | .less | .lessOrEqual => 5
  | .not => 8

def Trace.precedence : Trace → Nat
  | .binary operator _ _ _ => operator.precedence
  | .unary .. | .precomputed .. => 8
  | .otherwise | .leaf .. | .notEvaluated => 9

/-- The evaluation of one condition that an operation lists. -/
structure TraceRecord where
  operation : Uid
  condition : Uid
  trace : Trace
  matched : Bool
  work : Option Uid
  deriving DecidableEq, Repr

end Workflow
