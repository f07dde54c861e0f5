import Workflow.Proofs.Run.Nesting

set_option autoImplicit false

namespace Workflow

variable {σ α β : Type}

abbrev Verdicts := List (Uid × Bool)

def StepRunner.carrying (runner : StepRunner σ) : StepRunner (σ × Verdicts) :=
  fun step state => ((runner step state.1).1, (runner step state.1).2, state.2)

def Executor.carrying (executor : Executor σ) : Executor (σ × Verdicts) where
  runners kind := (executor.runners kind).map StepRunner.carrying
  defaultRunner := executor.defaultRunner.map StepRunner.carrying
  policy := executor.policy
  maxDepth := executor.maxDepth

def Run.tell (condition : Uid) (holds : Bool) : Run (σ × Verdicts) Unit :=
  modify fun state =>
    { state with runners := (state.runners.1, (condition, holds) :: state.runners.2) }

namespace Engine

def evaluateTold (engine : Engine (σ × Verdicts)) (below : Below (σ × Verdicts))
    (operation : Conditional) (condition : Uid) (depth : Nat) (path : List Uid) :
    Run (σ × Verdicts) Trace := do
  let trace ← engine.evaluate below operation condition depth path
  Run.tell condition trace.holds
  return trace

def callsTold (engine : Engine (σ × Verdicts)) : Nat → Below (σ × Verdicts)
  | 0 => engine.calls 0
  | room + 1 => {
      operation := engine.runOperation (engine.callsTold room)
      condition := engine.evaluateTold (engine.callsTold room) }

end Engine

def Executor.executeTold (executor : Executor σ) (script : Script) (results : Table Json)
    (runners : σ) : Except RunError Unit × RunState (σ × Verdicts) :=
  let engine : Engine (σ × Verdicts) := ⟨executor.carrying, script⟩
  (engine.runListedBy (engine.callsTold script.enterable.length) script.order.uids).outcome
    { results, runners := (runners, []) }

namespace RunState

def plain (state : RunState (σ × Verdicts)) : RunState σ :=
  { state with runners := state.runners.1 }

/-- Under what is no step and no operation the results hold the latest verdict, and what was there
before if there is none. -/
def Upholds (script : Script) (results : Table Json) (state : RunState (σ × Verdicts)) : Prop :=
  ∀ uid, uid ∉ script.steps.keys → uid ∉ script.operations.keys →
    state.results.get? uid =
      ((state.runners.2.lookup uid).map conditionResult).or (results.get? uid)

variable {script : Script} {results : Table Json} {state : RunState (σ × Verdicts)}

theorem Upholds.stored {key : Uid} (h : state.Upholds script results)
    (hkey : key ∈ script.steps.keys ∨ key ∈ script.operations.keys) (value : Json) :
    (state.stored key value).Upholds script results := by
  intro uid hstep hoperation
  have hne : uid ≠ key := by
    rintro rfl
    exact hkey.elim hstep hoperation
  simpa [RunState.stored, RunState.noted, hne] using h uid hstep hoperation

end RunState

namespace Run

/-- Where the verdicts are upheld, the second action does without them what the first one does, and
that one upholds them. -/
def Tells (script : Script) (results : Table Json) (told : Run (σ × Verdicts) α)
    (plain : Run σ α) : Prop :=
  ∀ state, state.Upholds script results →
    plain.outcome state.plain = ((told.outcome state).1, (told.outcome state).2.plain) ∧
      (told.outcome state).2.Upholds script results

namespace Tells

variable {script : Script} {results : Table Json} {told : Run (σ × Verdicts) α} {plain : Run σ α}
  {f : α → Run (σ × Verdicts) β} {g : α → Run σ β}

theorem pure (a : α) :
    Tells script results (Pure.pure a : Run (σ × Verdicts) α) (Pure.pure a) :=
  fun _ h => ⟨rfl, h⟩

theorem throw (error : RunError) :
    Tells script results (MonadExcept.throw error : Run (σ × Verdicts) α)
      (MonadExcept.throw error) :=
  fun _ h => ⟨rfl, h⟩

theorem bind (h : Tells script results told plain)
    (hf : ∀ a, Tells script results (f a) (g a)) :
    Tells script results (told >>= f) (plain >>= g) := by
  intro state hstate
  obtain ⟨heq, hnext⟩ := h state hstate
  rw [outcome_bind, outcome_bind, heq]
  generalize told.outcome state = ending at hnext ⊢
  rcases ending with ⟨error | a, after⟩
  · exact ⟨rfl, hnext⟩
  · exact hf a after hnext

theorem throw_bind (error : RunError) :
    Tells script results ((MonadExcept.throw error : Run (σ × Verdicts) α) >>= f)
      (MonadExcept.throw error >>= g) :=
  fun _ h => ⟨rfl, h⟩

theorem note (event : Event) :
    Tells script results (Run.note event : Run (σ × Verdicts) Unit) (Run.note event) :=
  fun _ h => ⟨rfl, h⟩

theorem record (record : TraceRecord) :
    Tells script results (Run.record record : Run (σ × Verdicts) Unit) (Run.record record) :=
  fun _ h => ⟨rfl, h⟩

theorem store {key : Uid} (hkey : key ∈ script.steps.keys ∨ key ∈ script.operations.keys)
    (value : Json) :
    Tells script results (Run.store key value : Run (σ × Verdicts) Unit) (Run.store key value) :=
  fun _ h => ⟨rfl, h.stored hkey value⟩

theorem store_tell (condition : Uid) (holds : Bool) (a : α) :
    Tells script results
      (Run.store condition (conditionResult holds) >>= fun _ =>
        tell condition holds >>= fun _ => Pure.pure a : Run (σ × Verdicts) α)
      (Run.store condition (conditionResult holds) >>= fun _ => Pure.pure a) := by
  intro state h
  refine ⟨rfl, fun uid hstep hoperation => ?_⟩
  change (state.results.insert condition (conditionResult holds)).get? uid =
    ((((condition, holds) :: state.runners.2).lookup uid).map conditionResult).or (results.get? uid)
  rw [Table.get?_insert, Table.lookup_cons, h uid hstep hoperation]
  split <;> rfl

theorem entering {frame : Frame} {path : List Uid} {first : List Uid → Run (σ × Verdicts) α}
    {second : List Uid → Run σ α}
    (h : Tells script results (first (frame.uid :: path)) (second (frame.uid :: path))) :
    Tells script results (Run.entering frame path first) (Run.entering frame path second) := by
  unfold Run.entering
  split
  · exact .throw _
  · exact .bind (.note _) fun _ => .bind h fun a => .bind (.note _) fun _ => .pure a

theorem parametric : Parametric fun (α : Type) => Tells (α := α) (σ := σ) script results where
  pure := pure
  throw := throw
  bind := bind

end Tells

end Run

theorem Executor.runnerFor?_carrying (executor : Executor σ) (kind : StepKind) :
    executor.carrying.runnerFor? kind =
      (executor.runnerFor? kind).map fun found => (found.1, found.2.carrying) := by
  simp only [runnerFor?, carrying]
  cases executor.runners kind with
  | none => simp [Function.comp_def]
  | some runner => rfl

namespace Engine

open Run (Tells)

variable (executor : Executor σ) {script : Script} {results : Table Json}

theorem tells_leaf (operand : Operand) :
    Tells script results (leaf operand : Run (σ × Verdicts) Trace) (leaf operand) := by
  intro state h
  have hresults : state.plain.results = state.results := rfl
  rw [outcome_leaf, outcome_leaf, hresults]
  cases operand with
  | static value => exact ⟨rfl, h⟩
  | internal owner key =>
    cases hrecord : state.results.get? owner with
    | none =>
      simp only [hrecord]
      exact ⟨trivial, h⟩
    | some record =>
      simp only [hrecord]
      cases record.lookup? key <;> exact ⟨rfl, h⟩

theorem tells_runStep {uid : Uid} (huid : uid ∈ script.steps.keys) (step : Step) :
    Tells script results (runStep ⟨executor.carrying, script⟩ uid step)
      (runStep ⟨executor, script⟩ uid step) := by
  intro state h
  rw [outcome_runStep, outcome_runStep, executor.runnerFor?_carrying]
  cases executor.runnerFor? step.kind with
  | none => exact ⟨rfl, h⟩
  | some found =>
    obtain ⟨slot, runner⟩ := found
    have hrunners : state.plain.runners = state.runners.1 := rfl
    rcases hanswer : runner { step with id := uid } state.runners.1 with ⟨cause | output, runners⟩
    · simp only [Option.map_some, StepRunner.carrying, hrunners, hanswer]
      exact ⟨rfl, h⟩
    · simp only [Option.map_some, StepRunner.carrying, hrunners, hanswer]
      have hcalled : (state.called slot { step with id := uid } (.ok output)
          (runners, state.runners.2)).Upholds script results := h
      exact ⟨rfl, hcalled.stored (.inl huid) output⟩

theorem tells_checkDepth (uid : Uid) (depth : Nat) :
    Tells script results (checkDepth ⟨executor.carrying, script⟩ uid depth)
      (checkDepth ⟨executor, script⟩ uid depth) := by
  have hlimit : executor.carrying.maxDepth = executor.maxDepth := rfl
  simp only [checkDepth, hlimit]
  split
  · exact .throw _
  · exact .pure _

structure TellsBelow (script : Script) (results : Table Json) (told : Below (σ × Verdicts))
    (plain : Below σ) : Prop where
  operation (uid : Uid) (depth : Nat) (path : List Uid) :
    Tells script results (told.operation uid depth path) (plain.operation uid depth path)
  condition (operation : Conditional) (condition : Uid) (depth : Nat) (path : List Uid) :
    Tells script results (told.condition operation condition depth path)
      (plain.condition operation condition depth path)

variable {told : Below (σ × Verdicts)} {plain : Below σ}

theorem tells_runAction (hbelow : TellsBelow script results told plain) (row : ConditionRow)
    (condition : Uid) (depth : Nat) (path : List Uid) :
    Tells script results (runAction ⟨executor.carrying, script⟩ told row condition depth path)
      (runAction ⟨executor, script⟩ plain row condition depth path) := by
  refine Tells.parametric.runAction _ _ condition fun work _ => ?_
  simp only [runWork]
  split
  · split
    · exact hbelow.operation work depth path
    · exact .throw _
  · split
    case h_1 step hstep =>
      have huid : work ∈ script.steps.keys :=
        Table.mem_keys_iff.mpr (by simp [Table.contains, hstep])
      exact tells_runStep executor huid step
    case h_2 => exact .throw _

theorem tells_evaluateRow (hbelow : TellsBelow script results told plain)
    (operation : Conditional) (row : ConditionRow) (depth : Nat) (path : List Uid) :
    Tells script results
      (evaluateRow ⟨executor.carrying, script⟩ told operation row depth path)
      (evaluateRow ⟨executor, script⟩ plain operation row depth path) := by
  refine Tells.parametric.evaluateRow _ _ _ fun operand _ => ?_
  refine Tells.parametric.operand _ _ rfl (tells_leaf operand) fun owner nested _ _ _ => ?_
  exact ⟨hbelow.condition operation owner _ path,
    tells_runAction executor hbelow nested owner _ path⟩

theorem tells_findCondition (operation : Conditional) (condition : Uid) (depth : Nat) :
    Tells script results
      (findCondition ⟨executor.carrying, script⟩ operation condition depth)
      (findCondition ⟨executor, script⟩ operation condition depth) := by
  refine .bind (.note _) fun _ => .bind (tells_checkDepth executor _ _) fun _ => ?_
  split
  · exact .pure _
  · exact .throw _

theorem tells_evaluate (hbelow : TellsBelow script results told plain) (operation : Conditional)
    (condition : Uid) (depth : Nat) (path : List Uid) :
    Tells script results
      (evaluateTold ⟨executor.carrying, script⟩ told operation condition depth path)
      (evaluate ⟨executor, script⟩ plain operation condition depth path) := by
  simp only [evaluateTold, evaluate, bind_assoc, pure_bind]
  refine .bind (tells_findCondition executor operation condition depth) fun row => ?_
  refine .bind (.entering (tells_evaluateRow executor hbelow operation row depth _)) fun trace => ?_
  exact .store_tell condition trace.holds trace

theorem tells_runOperation (hbelow : TellsBelow script results told plain) (uid : Uid)
    (depth : Nat) (path : List Uid) :
    Tells script results (runOperation ⟨executor.carrying, script⟩ told uid depth path)
      (runOperation ⟨executor, script⟩ plain uid depth path) := by
  simp only [runOperation, findOperation, bind_assoc]
  refine .bind (.note _) fun _ => .bind (tells_checkDepth executor _ _) fun _ => ?_
  cases hfound : script.operations.get? uid with
  | none => exact .throw_bind _
  | some found =>
    cases found with
    | unsupported operation => exact .throw_bind _
    | conditional operation =>
      have huid : uid ∈ script.operations.keys :=
        Table.mem_keys_iff.mpr (by simp [Table.contains, hfound])
      simp only [pure_bind]
      refine .bind (.entering ?_) fun matched => .store (.inr huid) _
      refine Tells.parametric.runConditions _ _ rfl rfl uid .record (fun condition row _ => ?_) _ _
      exact ⟨hbelow.condition operation condition depth _,
        tells_runAction executor hbelow row condition _ _⟩

theorem tellsBelow_calls (room : Nat) :
    TellsBelow script results (callsTold ⟨executor.carrying, script⟩ room)
      (calls ⟨executor, script⟩ room) := by
  induction room with
  | zero =>
    refine ⟨fun uid depth path => ?_, fun operation condition depth path => ?_⟩
    · simp only [callsTold, calls, findOperation, bind_assoc]
      refine .bind (.note _) fun _ => .bind (tells_checkDepth executor _ _) fun _ => ?_
      split
      · exact .bind (.pure _) fun _ => .throw _
      · exact .throw_bind _
      · exact .throw_bind _
    · exact .bind (tells_findCondition executor operation condition depth) fun _ => .throw _
  | succ room ih => exact ⟨tells_runOperation executor ih, tells_evaluate executor ih⟩

theorem tells_runListedBy (hbelow : TellsBelow script results told plain) (uids : List Uid) :
    Tells script results (runListedBy ⟨executor.carrying, script⟩ told uids)
      (runListedBy ⟨executor, script⟩ plain uids) := by
  induction uids with
  | nil => exact .pure _
  | cons uid uids ih =>
    refine .bind ?_ fun _ => ih
    split
    · exact hbelow.operation uid 0 []
    · exact .throw _

end Engine

/-- A run in which all evaluations are told is the run without it, but for what is told, and in the
end the results uphold that. -/
theorem Executor.executeFrom_eq_plain (executor : Executor σ) (script : Script)
    (results : Table Json) (runners : σ) :
    let told := executor.executeTold script results runners
    executor.executeFrom script results runners = (told.1, told.2.plain) ∧
      told.2.Upholds script results := by
  intro told
  let engine : Engine σ := ⟨executor, script⟩
  let start : RunState (σ × Verdicts) := { results, runners := (runners, []) }
  have hstart : start.Upholds script results := fun uid _ _ => rfl
  have hbelow : Engine.TellsBelow script results _ _ :=
    Engine.tellsBelow_calls executor script.enterable.length
  have htells := Engine.tells_runListedBy executor hbelow script.order.uids start hstart
  rw [executor.executeFrom_eq_outcome, engine.runAll_eq_runListedBy]
  exact htells

end Workflow
