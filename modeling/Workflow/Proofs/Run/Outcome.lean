import Workflow.Run.Execution

set_option autoImplicit false

namespace Workflow

namespace RunState

variable {σ : Type}

def noted (state : RunState σ) (event : Event) : RunState σ :=
  { state with journal := state.journal ++ [event] }

def stored (state : RunState σ) (uid : Uid) (value : Json) : RunState σ :=
  { state.noted (.store uid value) with results := state.results.insert uid value }

def recorded (state : RunState σ) (record : TraceRecord) : RunState σ :=
  { state with records := state.records ++ [record] }

def called (state : RunState σ) (slot : RunnerSlot) (step : Step) (answer : Except String Json)
    (runners : σ) : RunState σ :=
  { state.noted (.call slot step answer) with runners }

end RunState

namespace Run

variable {σ α β : Type}

def outcome (action : Run σ α) (state : RunState σ) : Except RunError α × RunState σ :=
  action.run.run state

@[simp] theorem outcome_pure (a : α) (state : RunState σ) :
    outcome (pure a : Run σ α) state = (.ok a, state) := rfl

@[simp] theorem outcome_throw (error : RunError) (state : RunState σ) :
    outcome (throw error : Run σ α) state = (.error error, state) := rfl

theorem outcome_bind (action : Run σ α) (f : α → Run σ β) (state : RunState σ) :
    outcome (action >>= f) state =
      match outcome action state with
      | (.ok a, after) => outcome (f a) after
      | (.error error, after) => (.error error, after) := by
  simp only [outcome, ExceptT.run_bind, StateT.run_bind]
  rcases StateT.run (ExceptT.run action) state with ⟨_ | a, after⟩ <;> rfl

theorem outcome_bind_ok {action : Run σ α} {a : α} {state after : RunState σ}
    (h : outcome action state = (.ok a, after)) (f : α → Run σ β) :
    outcome (action >>= f) state = outcome (f a) after := by
  rw [outcome_bind, h]

theorem outcome_bind_error {action : Run σ α} {error : RunError} {state after : RunState σ}
    (h : outcome action state = (.error error, after)) (f : α → Run σ β) :
    outcome (action >>= f) state = (.error error, after) := by
  rw [outcome_bind, h]

theorem bind_congr {action : Run σ α} {f g : α → Run σ β}
    (h : ∀ state a after, outcome action state = (.ok a, after) → f a = g a) :
    action >>= f = action >>= g := by
  funext state
  change outcome (action >>= f) state = outcome (action >>= g) state
  rcases heq : outcome action state with ⟨error | a, after⟩
  · rw [outcome_bind_error heq, outcome_bind_error heq]
  · rw [outcome_bind_ok heq, outcome_bind_ok heq, h state a after heq]

@[simp] theorem outcome_map (f : α → β) (action : Run σ α) (state : RunState σ) :
    outcome (f <$> action) state =
      match outcome action state with
      | (.ok a, after) => (.ok (f a), after)
      | (.error error, after) => (.error error, after) := by
  rw [← bind_pure_comp, outcome_bind]
  rfl

@[simp] theorem outcome_get (state : RunState σ) :
    outcome (get : Run σ (RunState σ)) state = (.ok state, state) := rfl

@[simp] theorem outcome_note (event : Event) (state : RunState σ) :
    outcome (note event : Run σ Unit) state = (.ok (), state.noted event) := rfl

@[simp] theorem outcome_store (uid : Uid) (value : Json) (state : RunState σ) :
    outcome (store uid value : Run σ Unit) state = (.ok (), state.stored uid value) := rfl

@[simp] theorem outcome_record (r : TraceRecord) (state : RunState σ) :
    outcome (record r : Run σ Unit) state = (.ok (), state.recorded r) := rfl

theorem outcome_entering_mem {frame : Frame} {path : List Uid} (h : frame.uid ∈ path)
    (body : List Uid → Run σ α) (state : RunState σ) :
    outcome (entering frame path body) state = (.error (.cyclicWork frame.uid), state) := by
  simp [entering, h]

theorem outcome_entering {frame : Frame} {path : List Uid} (h : frame.uid ∉ path)
    (body : List Uid → Run σ α) (state : RunState σ) :
    outcome (entering frame path body) state =
      match outcome (body (frame.uid :: path)) (state.noted (.enter frame)) with
      | (.ok a, after) => (.ok a, after.noted (.leave frame))
      | (.error error, after) => (.error error, after) := by
  rw [entering, if_neg h, outcome_bind_ok (outcome_note _ _), outcome_bind]
  rcases outcome (body (frame.uid :: path)) (state.noted (.enter frame)) with ⟨_ | a, after⟩ <;> rfl

theorem entering_congr {frame : Frame} {path : List Uid} {f g : List Uid → Run σ α}
    (h : frame.uid ∉ path → f (frame.uid :: path) = g (frame.uid :: path)) :
    entering frame path f = entering frame path g := by
  by_cases hmem : frame.uid ∈ path
  · simp [entering, hmem]
  · simp [entering, hmem, h hmem]

end Run

namespace Engine

variable {σ : Type}

theorem outcome_leaf (operand : Operand) (state : RunState σ) :
    (leaf operand : Run σ Trace).outcome state =
      match operand with
      | .static value => (.ok (.leaf operand.text value), state)
      | .internal owner key =>
        match state.results.get? owner with
        | none => (.error (.unresolvedReference owner), state)
        | some record =>
          match record.lookup? key with
          | none => (.error (.unresolvedField owner key), state.noted (.read owner record))
          | some value => (.ok (.leaf operand.text value), state.noted (.read owner record)) := by
  cases operand with
  | static value => rfl
  | internal owner key =>
    cases hrecord : state.results.get? owner with
    | none => simp [leaf, Run.outcome_bind, Operand.resolve, hrecord]
    | some record =>
      cases hfield : record.lookup? key <;>
        simp [leaf, Run.outcome_bind, Operand.resolve, hrecord, hfield]

theorem outcome_runStep (engine : Engine σ) (uid : Uid) (step : Step) (state : RunState σ) :
    (engine.runStep uid step).outcome state =
      match engine.executor.runnerFor? step.kind with
      | none => (.error (.noRunner step.kind), state)
      | some (slot, runner) =>
        match runner { step with id := uid } state.runners with
        | (.ok output, runners) =>
          (.ok (),
            (state.called slot { step with id := uid } (.ok output) runners).stored uid output)
        | (.error cause, runners) =>
          (.error (.step uid cause),
            state.called slot { step with id := uid } (.error cause) runners) := by
  cases hrunner : engine.executor.runnerFor? step.kind with
  | none => simp [runStep, hrunner]
  | some found =>
    obtain ⟨slot, runner⟩ := found
    rcases hanswer : runner { step with id := uid } state.runners with ⟨_ | _, runners⟩ <;>
      simp [runStep, hrunner, hanswer, Run.outcome_bind] <;> rfl

theorem get?_of_findOperation {engine : Engine σ} {uid : Uid} {depth : Nat}
    {operation : Conditional} {state after : RunState σ}
    (h : (engine.findOperation uid depth).outcome state = (.ok operation, after)) :
    engine.script.operations.get? uid = some (.conditional operation) := by
  simp only [findOperation, checkDepth, Run.outcome_bind, Run.outcome_note] at h
  by_cases hdepth : engine.executor.maxDepth < depth
  · simp [hdepth] at h
  · simp only [hdepth, if_false, Run.outcome_pure] at h
    split at h
    case h_1 found hfound => cases h; exact hfound
    case h_2 | h_3 => cases h

theorem get?_of_findCondition {engine : Engine σ} {operation : Conditional} {condition : Uid}
    {depth : Nat} {row : ConditionRow} {state after : RunState σ}
    (h : (engine.findCondition operation condition depth).outcome state = (.ok row, after)) :
    operation.conditions.get? condition = some row := by
  simp only [findCondition, checkDepth, Run.outcome_bind, Run.outcome_note] at h
  by_cases hdepth : engine.executor.maxDepth < depth
  · simp [hdepth] at h
  · simp only [hdepth, if_false, Run.outcome_pure] at h
    split at h
    case h_1 found hfound => cases h; exact hfound
    case h_2 => cases h

end Engine

theorem Executor.executeFrom_eq_outcome {σ : Type} (executor : Executor σ) (script : Script)
    (results : Table Json) (runners : σ) :
    executor.executeFrom script results runners =
      (Engine.runAll ⟨executor, script⟩ script.order.uids).outcome { results, runners } := rfl

end Workflow
