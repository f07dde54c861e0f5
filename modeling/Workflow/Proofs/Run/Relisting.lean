import Workflow.Proofs.Run.Coupling

set_option autoImplicit false

namespace Workflow

def Operation.withDependsOn (uids : List Uid) : Operation → Operation
  | .conditional operation => .conditional { operation with dependsOn := uids }
  | .unsupported operation => .unsupported operation

/-- The script with these lists of dependencies, by the keys of operations and steps. -/
def Script.withDependsOn (script : Script) (lists : Uid → List Uid) : Script where
  order := script.order
  operations := script.operations.map fun uid => Operation.withDependsOn (lists uid)
  steps := script.steps.map fun uid step => { step with dependsOn := lists uid }

variable {σ : Type}

/-- The runner, shown each step with the list for it. -/
def StepRunner.showing (lists : Uid → List Uid) (runner : StepRunner σ) : StepRunner σ :=
  fun step => runner { step with dependsOn := lists step.id }

def Executor.showing (executor : Executor σ) (lists : Uid → List Uid) : Executor σ :=
  { executor with
    runners := fun kind => (executor.runners kind).map (StepRunner.showing lists)
    defaultRunner := executor.defaultRunner.map (StepRunner.showing lists) }

def Event.withoutDependsOn : Event → Event
  | .call slot step answer => .call slot { step with dependsOn := [] } answer
  | event => event

namespace RunState

def withoutDependsOn (state : RunState σ) : RunState σ :=
  { state with journal := state.journal.map Event.withoutDependsOn }

theorem withoutDependsOn_noted (state : RunState σ) (event : Event) :
    (state.noted event).withoutDependsOn =
      state.withoutDependsOn.noted event.withoutDependsOn := by
  simp [noted, withoutDependsOn]

theorem withoutDependsOn_stored (state : RunState σ) (uid : Uid) (value : Json) :
    (state.stored uid value).withoutDependsOn = state.withoutDependsOn.stored uid value := by
  simp [stored, noted, withoutDependsOn, Event.withoutDependsOn]

theorem withoutDependsOn_called (state : RunState σ) (slot : RunnerSlot) (step : Step)
    (answer : Except String Json) (runners : σ) :
    (state.called slot step answer runners).withoutDependsOn =
      state.withoutDependsOn.called slot { step with dependsOn := [] } answer runners := by
  simp [called, noted, withoutDependsOn, Event.withoutDependsOn]

end RunState

/-- The states differ at most in the lists of the steps that were called. -/
def Coupling.butDependsOn : Coupling σ where
  Abreast s t := s.withoutDependsOn = t.withoutDependsOn
  Parted _ _ _ := False
  noted event h := by rw [RunState.withoutDependsOn_noted, h, RunState.withoutDependsOn_noted]
  stored uid value h := by
    rw [RunState.withoutDependsOn_stored, h, RunState.withoutDependsOn_stored]
  recorded record h := congrArg (RunState.recorded · record) h
  grown h _ := h

theorem Executor.runnerFor?_showing (executor : Executor σ) (lists : Uid → List Uid)
    (kind : StepKind) :
    (executor.showing lists).runnerFor? kind =
      (executor.runnerFor? kind).map fun found => (found.1, found.2.showing lists) := by
  simp only [runnerFor?, showing]
  cases executor.runners kind with
  | none => simp [Function.comp_def]
  | some runner => rfl

namespace Engine

theorem pairs_runStep_showing (executor : Executor σ) (script changed : Script)
    (lists : Uid → List Uid) (uid : Uid) (step : Step) :
    Coupling.butDependsOn.Pairs
      (runStep ⟨executor, changed⟩ uid { step with dependsOn := lists uid })
      (runStep ⟨executor.showing lists, script⟩ uid step) := by
  refine ⟨grows_runStep _ uid step, fun {s t} habreast => ?_⟩
  rw [outcome_runStep, outcome_runStep, executor.runnerFor?_showing]
  have heq : s.withoutDependsOn = t.withoutDependsOn := habreast
  have hrunners : s.runners = t.runners := (congrArg RunState.runners heq :)
  cases executor.runnerFor? step.kind with
  | none => exact .alike habreast
  | some found =>
    obtain ⟨slot, runner⟩ := found
    have hcalled (answer : Except String Json) (runners : σ) :
        Coupling.butDependsOn.Abreast
          (s.called slot { step with id := uid, dependsOn := lists uid } answer runners)
          (t.called slot { step with id := uid } answer runners) := by
      change RunState.withoutDependsOn _ = RunState.withoutDependsOn _
      rw [RunState.withoutDependsOn_called, heq, RunState.withoutDependsOn_called]
    rcases hanswer : runner { step with id := uid, dependsOn := lists uid } t.runners with
      ⟨cause | output, runners⟩
    · simp only [Option.map_some, StepRunner.showing, hrunners, hanswer]
      exact .alike (hcalled _ runners)
    · simp only [Option.map_some, StepRunner.showing, hrunners, hanswer]
      exact .alike (Coupling.butDependsOn.stored uid output (hcalled _ runners))

theorem coupled_withDependsOn (executor : Executor σ) (script : Script)
    (lists : Uid → List Uid) :
    Coupled .butDependsOn (fun _ => True) ⟨executor, script.withDependsOn lists⟩
      ⟨executor.showing lists, script⟩ where
  policy := rfl
  checkDepth := pairs_checkDepth_of_eq rfl
  operation uid := by
    simp only [Script.withDependsOn, Table.get?_map]
    cases script.operations.get? uid with
    | none => exact .neither
    | some operation =>
      cases operation with
      | conditional operation => exact .both (.conditional rfl rfl)
      | unsupported operation => exact .both (.unsupported rfl)
  step uid := by
    simp only [Script.withDependsOn, Table.get?_map]
    cases script.steps.get? uid with
    | none => exact .neither
    | some step => exact .both (pairs_runStep_showing executor script _ lists uid step)
  leaf _ _ _ := pairs_leaf fun owner _ s t habreast => by
    have heq : s.withoutDependsOn = t.withoutDependsOn := habreast
    have hresults : s.results = t.results := (congrArg RunState.results heq :)
    rw [hresults]
  work _ _ _ _ := trivial

end Engine

/-- With other lists of dependencies a script runs as before, but for the lists that the runners are
shown. -/
theorem Executor.executeFrom_withDependsOn (executor : Executor σ) (script : Script)
    (lists : Uid → List Uid) (results : Table Json) (runners : σ) :
    let changed := executor.executeFrom (script.withDependsOn lists) results runners
    let run := (executor.showing lists).executeFrom script results runners
    changed.1 = run.1 ∧ changed.2.withoutDependsOn = run.2.withoutDependsOn := by
  have hends := (Engine.coupled_withDependsOn executor script lists).executeFrom_ends rfl results
    runners runners rfl
  generalize executor.executeFrom (script.withDependsOn lists) results runners = changed at hends
  generalize (executor.showing lists).executeFrom script results runners = run at hends
  cases hends with
  | alike habreast => exact ⟨rfl, habreast⟩
  | parted hparted => exact hparted.elim

end Workflow
