import Workflow.Operand
import Workflow.Path
import Workflow.Run.Error
import Workflow.Step.Basic
import Workflow.Trace.Basic

/-!
What a run reads and writes: results by identifier, the records of evaluated conditions, and a
journal of all that happened. A failed run leaves its state as it was when it failed.
-/

set_option autoImplicit false

namespace Workflow

/-- Answers for a step, from a state that only the runners see. -/
abbrev StepRunner (σ : Type) := Step → σ → Except String Json × σ

inductive RunnerSlot where
  | own (kind : StepKind)
  | default
  deriving DecidableEq, Repr

def RunnerSlot.name : RunnerSlot → String
  | .own kind => kind.name
  | .default => "default"

inductive MatchPolicy where
  | all
  | firstMatch
  deriving DecidableEq, Repr

structure Executor (σ : Type) where
  runners : StepKind → Option (StepRunner σ) := fun _ => none
  /-- For the kinds without a runner of their own. -/
  defaultRunner : Option (StepRunner σ) := none
  policy : MatchPolicy := .all
  maxDepth : Nat := 64

def Executor.runnerFor? {σ : Type} (executor : Executor σ) (kind : StepKind) :
    Option (RunnerSlot × StepRunner σ) :=
  match executor.runners kind with
  | some runner => some (.own kind, runner)
  | none => executor.defaultRunner.map fun runner => (.default, runner)

/-- What a run enters and leaves. -/
inductive Frame where
  | operation (uid : Uid)
  | condition (uid : Uid)
  deriving DecidableEq, Repr

def Frame.uid : Frame → Uid
  | .operation uid | .condition uid => uid

inductive Event where
  /-- A frame is asked for, before anything is checked. -/
  | visit (frame : Frame) (depth : Nat)
  | enter (frame : Frame)
  | leave (frame : Frame)
  /-- An operand looks into the result of its owner. -/
  | read (owner : Uid) (record : Json)
  | call (slot : RunnerSlot) (step : Step) (answer : Except String Json)
  | store (uid : Uid) (value : Json)

structure RunState (σ : Type) where
  results : Table Json
  records : List TraceRecord := []
  journal : List Event := []
  runners : σ

/-- A run in progress: it may fail, and what it wrote until then stays. -/
abbrev Run (σ : Type) := ExceptT RunError (StateM (RunState σ))

namespace Run

variable {σ : Type}

def note (event : Event) : Run σ Unit :=
  modify fun state => { state with journal := state.journal ++ [event] }

def store (uid : Uid) (value : Json) : Run σ Unit := do
  note (.store uid value)
  modify fun state => { state with results := state.results.insert uid value }

def record (record : TraceRecord) : Run σ Unit :=
  modify fun state => { state with records := state.records ++ [record] }

/-- Does `body` with the frame added to the path of what has been entered. No identifier is entered
again before it was left, whatever it names. -/
def entering {α : Type} (frame : Frame) (path : List Uid) (body : List Uid → Run σ α) : Run σ α :=
  if frame.uid ∈ path then throw (.cyclicWork frame.uid)
  else do
    note (.enter frame)
    let a ← body (frame.uid :: path)
    note (.leave frame)
    return a

end Run

def Operand.resolve (operand : Operand) (results : Table Json) : Except RunError Json :=
  match operand with
  | .static value => .ok value
  | .internal owner key =>
    match results.get? owner with
    | none => .error (.unresolvedReference owner)
    | some record =>
      match record.lookup? key with
      | some value => .ok value
      | none => .error (.unresolvedField owner key)

end Workflow
