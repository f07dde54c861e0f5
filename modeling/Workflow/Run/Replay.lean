import Workflow.Run.State

set_option autoImplicit false

namespace Workflow

structure Replay where
  outputs : Table Json := ∅
  /-- The answer for steps without a recorded output. -/
  fallback : Option Json := none

namespace Replay

def ofOutputs (outputs : Table Json) : Replay := { outputs }

def ofText (text : String) : Except Fault Replay := do
  return ofOutputs (← readText (Readable.readTable Readable.readValue) text)

def withOutput (replay : Replay) (step : Uid) (output : Json) : Replay :=
  { replay with outputs := replay.outputs.insert step output }

def withFallback (replay : Replay) (output : Json) : Replay :=
  { replay with fallback := some output }

def answer (replay : Replay) (step : Step) : Except String Json :=
  match (replay.outputs.get? step.id).or replay.fallback with
  | some output => .ok output
  | none => .error ("no recorded output for step '" ++ step.id ++ "'")

def runner {σ : Type} (replay : Replay) : StepRunner σ := fun step state =>
  (replay.answer step, state)

end Replay

end Workflow
