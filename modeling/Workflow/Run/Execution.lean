import Workflow.Run.State
import Workflow.Script.Basic

/-!
Running a script. Operations and conditions call each other, and none may be entered again before it
has ended; so calls nest at most as deep as there are keys in the tables, and that count bounds the
recursion.
-/

set_option autoImplicit false

namespace Workflow

open Run

/-- What a call may ask for below itself: an operation, or a condition of an operation, each with
the nesting depth and the path of what has been entered. -/
structure Below (σ : Type) where
  operation : Uid → Nat → List Uid → Run σ Unit
  condition : Conditional → Uid → Nat → List Uid → Run σ Trace

/-- An executor at work on a script. -/
structure Engine (σ : Type) where
  executor : Executor σ
  script : Script

def conditionResult (holds : Bool) : Json := .object [("output", .object [("result", .bool holds)])]

def operationResult (matched : List Uid) : Json :=
  .object [("output", .object [
    ("matched", .array (matched.map .string)), ("success", .bool true)])]

def Operator.isDecidedBy (operator : Operator) (left : Json) : Bool :=
  match operator with
  | .and => !left.isTruthy
  | .or => left.isTruthy
  | _ => false

namespace Engine

variable {σ : Type}

def checkDepth (engine : Engine σ) (uid : Uid) (depth : Nat) : Run σ Unit :=
  if engine.executor.maxDepth < depth then throw (.depthExceeded uid engine.executor.maxDepth)
  else pure ()

/-- The runner sees the step under the identifier by which it was asked for. -/
def runStep (engine : Engine σ) (uid : Uid) (step : Step) : Run σ Unit := do
  match engine.executor.runnerFor? step.kind with
  | none => throw (.noRunner step.kind)
  | some (slot, runner) =>
    let step := { step with id := uid }
    let state ← get
    let (answer, runners) := runner step state.runners
    set { state with runners }
    note (.call slot step answer)
    match answer with
    | .ok output => store uid output
    | .error cause => throw (.step uid cause)

def runWork (engine : Engine σ) (below : Below σ) (work referencedBy : Uid) (depth : Nat)
    (path : List Uid) : Run σ Unit :=
  if WorkKind.of? work = some .operation then
    if engine.script.operations.contains work then below.operation work depth path
    else throw (.missingWork work referencedBy)
  else
    match engine.script.steps.get? work with
    | some step => engine.runStep work step
    | none => throw (.missingWork work referencedBy)

def runAction (engine : Engine σ) (below : Below σ) (row : ConditionRow) (condition : Uid)
    (depth : Nat) (path : List Uid) : Run σ (Option Uid) := do
  match row.work with
  | none => return none
  | some work =>
    engine.runWork below work condition depth path
    return some work

def leaf (operand : Operand) : Run σ Trace := do
  let results := (← get).results
  match operand with
  | .internal owner _ =>
    match results.get? owner with
    | some record => note (.read owner record)
    | none => pure ()
  | .static _ => pure ()
  match operand.resolve results with
  | .ok value => return .leaf operand.text value
  | .error error => throw error

/-- A condition of the same operation is evaluated on the spot, and its work runs if it holds. -/
def operand (engine : Engine σ) (below : Below σ) (operation : Conditional) (operand : Operand)
    (depth : Nat) (path : List Uid) : Run σ Trace := do
  match operand with
  | .static _ => leaf operand
  | .internal owner key =>
    if WorkKind.of? owner = some .condition then
      match operation.conditions.get? owner with
      | none => leaf operand
      | some row =>
        if key = Operand.conditionKey then do
          let nested ← below.condition operation owner (depth + 1) path
          if nested.holds then do
            let _ ← engine.runAction below row owner (depth + 1) path
            return nested
          else return nested
        else throw (.unresolvedField owner key)
    else leaf operand

def operandOrNull (engine : Engine σ) (below : Below σ) (operation : Conditional)
    (operand : Option Operand) (depth : Nat) (path : List Uid) : Run σ Trace :=
  match operand with
  | some operand => engine.operand below operation operand depth path
  | none => pure .nullLeaf

def evaluateRow (engine : Engine σ) (below : Below σ) (operation : Conditional)
    (row : ConditionRow) (depth : Nat) (path : List Uid) : Run σ Trace := do
  match row.operator with
  | none =>
    match row.left with
    | none => return .otherwise
    | some value =>
      let value ← engine.operand below operation value depth path
      return .precomputed value value.holds
  | some operator =>
    let left ← engine.operandOrNull below operation row.left depth path
    if operator.isUnary then return .unary operator left (operator.apply left.value .null)
    else if operator.isDecidedBy left.value then
      return .binary operator left .notEvaluated (operator = .or)
    else
      let right ← engine.operandOrNull below operation row.right depth path
      return .binary operator left right (operator.apply left.value right.value)

/-- The conditions in turn, with the ones that held before them; those that hold are returned. -/
def runConditions (engine : Engine σ) (below : Below σ) (uid : Uid) (operation : Conditional)
    (depth : Nat) (path : List Uid) : List Uid → List Uid → Run σ (List Uid)
  | [], matched => return matched
  | condition :: rest, matched =>
    match operation.conditions.get? condition with
    | none => throw (.missingCondition uid condition)
    | some row => do
      let trace ← below.condition operation condition depth path
      if trace.holds then
        let work ← engine.runAction below row condition (depth + 1) path
        record ⟨uid, condition, trace, true, work⟩
        if engine.executor.policy = .firstMatch then return matched ++ [condition]
        else engine.runConditions below uid operation depth path rest (matched ++ [condition])
      else
        record ⟨uid, condition, trace, false, none⟩
        engine.runConditions below uid operation depth path rest matched

def findOperation (engine : Engine σ) (uid : Uid) (depth : Nat) : Run σ Conditional := do
  note (.visit (.operation uid) depth)
  engine.checkDepth uid depth
  match engine.script.operations.get? uid with
  | some (.conditional operation) => return operation
  | some (.unsupported operation) => throw (.unsupportedOperation uid operation.type)
  | none => throw (.missingOperation uid)

def runOperation (engine : Engine σ) (below : Below σ) (uid : Uid) (depth : Nat)
    (path : List Uid) : Run σ Unit := do
  let operation ← engine.findOperation uid depth
  let matched ← entering (.operation uid) path fun path =>
    engine.runConditions below uid operation depth path operation.order []
  store uid (operationResult matched)

def findCondition (engine : Engine σ) (operation : Conditional) (condition : Uid) (depth : Nat) :
    Run σ ConditionRow := do
  note (.visit (.condition condition) depth)
  engine.checkDepth condition depth
  match operation.conditions.get? condition with
  | some row => return row
  | none => throw (.missingCondition operation.id condition)

/-- Evaluates a condition and stores its outcome. Its work is left to the caller. -/
def evaluate (engine : Engine σ) (below : Below σ) (operation : Conditional) (condition : Uid)
    (depth : Nat) (path : List Uid) : Run σ Trace := do
  let row ← engine.findCondition operation condition depth
  let trace ← entering (.condition condition) path fun path =>
    engine.evaluateRow below operation row depth path
  store condition (conditionResult trace.holds)
  return trace

/-- Calls that may nest `room` deep. Without room everything that can be found has been entered. -/
def calls (engine : Engine σ) : Nat → Below σ
  | 0 => {
      operation := fun uid depth _ => do
        let _ ← engine.findOperation uid depth
        throw (.cyclicWork uid)
      condition := fun operation condition depth _ => do
        let _ ← engine.findCondition operation condition depth
        throw (.cyclicWork condition) }
  | room + 1 => {
      operation := engine.runOperation (engine.calls room)
      condition := engine.evaluate (engine.calls room) }

end Engine

/-- The keys of the operation table and of all condition tables: all that can be entered. -/
def Script.enterable (script : Script) : List Uid :=
  script.operations.keys ++ script.conditionals.flatMap fun entry => entry.2.conditions.keys

namespace Engine

variable {σ : Type}

def runListed (engine : Engine σ) (uid : Uid) : Run σ Unit :=
  if engine.script.operations.contains uid then
    (engine.calls engine.script.enterable.length).operation uid 0 []
  else throw (.missingOperation uid)

def runAll (engine : Engine σ) : List Uid → Run σ Unit
  | [] => pure ()
  | uid :: uids => do
    engine.runListed uid
    engine.runAll uids

end Engine

namespace Executor

variable {σ : Type}

/-- Runs the operations of a script in order, on top of earlier results. The first error ends the
run; what ran before it is not undone. -/
def executeFrom (executor : Executor σ) (script : Script) (results : Table Json) (runners : σ) :
    Except RunError Unit × RunState σ :=
  (Engine.runAll ⟨executor, script⟩ script.order.uids).run.run { results, runners }

def execute (executor : Executor σ) (script : Script) (runners : σ) :
    Except RunError Unit × RunState σ :=
  executor.executeFrom script ∅ runners

end Executor

end Workflow
