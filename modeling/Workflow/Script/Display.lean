import Workflow.Script.Basic

/-!
Scripts as trees: operations in their order, their conditions, and what each condition runs.
Conditions that are read by others are written out where they are read.
-/

set_option autoImplicit false

namespace Workflow

def maxDisplayDepth : Nat := 32

namespace ConditionRow

def textWith (showOperand : Option Operand → String) (row : ConditionRow) : String :=
  match row.operator with
  | none => showOperand row.left
  | some operator =>
    if operator.isUnary then operator.symbol ++ " " ++ showOperand row.left
    else showOperand row.left ++ " " ++ operator.symbol ++ " " ++ showOperand row.right

def operandText : Option Operand → String
  | some operand => operand.text
  | none => "null"

/-- The comparison of a row with the conditions it reads in parentheses, at most `room` deep. -/
def describe (conditions : Table ConditionRow) : Nat → ConditionRow → String
  | 0, row => row.textWith operandText
  | room + 1, row => row.textWith fun operand =>
    match operand with
    | some (.internal owner key) =>
      if WorkKind.of? owner = some .condition then
        match conditions.get? owner with
        | some nested => "(" ++ describe conditions room nested ++ ")"
        | none => "$" ++ owner
      else operandText (some (.internal owner key))
    | operand => operandText operand

end ConditionRow

namespace Script

def branch (isLast : Bool) : String := if isLast then "└── " else "├── "

def below (margin : String) (isLast : Bool) : String :=
  margin ++ if isLast then "    " else "│   "

def markLast {α : Type} : List α → List (α × Bool)
  | [] => []
  | a :: as => (a, as.isEmpty) :: markLast as

def stepLine (uid : Uid) (step : Step) : String :=
  "Step " ++ uid ++ " [" ++ step.kind.name ++ "]" ++
    match step.description with
    | some description => " \"" ++ description ++ "\""
    | none => ""

/-- The lines of what a condition runs; `operationLines` are those of an operation at a margin. -/
def workLines (script : Script) (operationLines : Uid → String → List String) (work : Uid)
    (margin : String) : List String :=
  if WorkKind.of? work = some .operation then operationLines work margin
  else
    match script.steps.get? work with
    | some step => [margin ++ branch true ++ stepLine work step]
    | none => [margin ++ branch true ++ work ++ " <Unknown Work>"]

def conditionLines (script : Script) (operationLines : Uid → String → List String) (room : Nat)
    (conditions : Table ConditionRow) (margin : String) (condition : Uid) (isFirst isLast : Bool) :
    List String :=
  match conditions.get? condition with
  | none => [margin ++ branch isLast ++ condition ++ " <Unknown Condition>"]
  | some row =>
    let text :=
      if row.isElse then "else"
      else (if isFirst then "if " else "elif ") ++ row.describe conditions room
    (margin ++ branch isLast ++ text) ::
      match row.work with
      | some work => script.workLines operationLines work (below margin isLast)
      | none => []

def operationLines (script : Script) : Nat → Uid → String → Bool → List String
  | 0, uid, margin, isLast => [margin ++ branch isLast ++ uid ++ " <nesting too deep>"]
  | room + 1, uid, margin, isLast =>
    match script.operations.get? uid with
    | none => [margin ++ branch isLast ++ uid ++ " <Unknown Operation>"]
    | some (.unsupported operation) =>
      [margin ++ branch isLast ++ uid ++ " (unsupported: " ++ operation.type ++ ")"]
    | some (.conditional operation) =>
      let nested := fun uid margin => script.operationLines room uid margin true
      let critical := if operation.critical then ", critical" else ""
      (margin ++ branch isLast ++ uid ++ " (conditional" ++ critical ++ ")") ::
        (markLast operation.order.zipIdx).flatMap fun ((condition, i), last) =>
          script.conditionLines nested room operation.conditions (below margin isLast) condition
            (i = 0) last

def lines (script : Script) : List String :=
  ("DemoScript (" ++ toString script.operations.size ++ " operations, " ++
      toString script.steps.size ++ " steps)") ::
    (markLast script.order.uids).flatMap fun (uid, last) =>
      script.operationLines (maxDisplayDepth + 1) uid "" last

def display (script : Script) : String := String.join (script.lines.map (· ++ "\n"))

end Script

end Workflow
