import Workflow.Proofs.Run.Alike
import Workflow.Proofs.Run.Coupling
import Workflow.Proofs.Run.Outputs
import Workflow.Run.Replay

/-!
Runs repeated from what they left. Where nothing but steps stores under the keys of steps, the
results of a run hold the last output of each step. Main statement: if no step gave different
outputs, these are enough to run the script again without its runners, and to the same end.
-/

set_option autoImplicit false

namespace Workflow

variable {σ : Type}

def Event.answer? : Event → Option (Uid × Except String Json)
  | .call _ step answer => some (step.id, answer)
  | _ => none

/-- All calls for one step got the same answer. -/
def Unanimous (journal : List Event) : Prop :=
  ∀ a ∈ journal.filterMap Event.answer?, ∀ b ∈ journal.filterMap Event.answer?,
    a.1 = b.1 → a.2 = b.2

instance (journal : List Event) : Decidable (Unanimous journal) := by
  unfold Unanimous
  infer_instance

def Script.StepsApart (script : Script) : Prop :=
  ∀ uid ∈ script.steps.keys, uid ∉ script.enterable

instance (script : Script) : Decidable script.StepsApart :=
  inferInstanceAs (Decidable (∀ uid ∈ script.steps.keys, uid ∉ script.enterable))

def Recorded (outputs : Table Json) (journal : List Event) : Prop :=
  ∀ slot step output, .call slot step (.ok output) ∈ journal → outputs.get? step.id = some output

theorem Unanimous.answer_eq {journal : List Event} (h : Unanimous journal) {slot slot' : RunnerSlot}
    {step step' : Step} {answer answer' : Except String Json}
    (hmem : .call slot step answer ∈ journal) (hmem' : .call slot' step' answer' ∈ journal)
    (hid : step.id = step'.id) : answer = answer' :=
  h (step.id, answer) (List.mem_filterMap.mpr ⟨_, hmem, rfl⟩) (step'.id, answer')
    (List.mem_filterMap.mpr ⟨_, hmem', rfl⟩) hid

theorem exists_call_of_given? {uid : Uid} {output : Json} {event : Event}
    (h : event.given? uid = some output) :
    ∃ slot step, event = .call slot step (.ok output) ∧ uid = step.id := by
  cases event with
  | call slot step answer =>
    cases answer with
    | error cause => cases h
    | ok given =>
      simp only [Event.given?, Option.ite_none_right_eq_some, Option.some.injEq] at h
      obtain ⟨huid, rfl⟩ := h
      exact ⟨slot, step, rfl, huid⟩
  | _ => cases h

/-- Under identifiers that are never entered the results hold what runners gave last, and else what
was there before. Only steps of the script were called. -/
structure RunState.Holds (script : Script) (results : Table Json) (state : RunState σ) : Prop where
  called : ∀ slot step answer, .call slot step answer ∈ state.journal →
    step.id ∈ script.steps.keys
  get?_results : ∀ uid, uid ∉ script.enterable → state.results.get? uid =
    (latest (Event.given? uid) state.journal).or (results.get? uid)

namespace RunState.Holds

variable {script : Script} {results : Table Json} {state : RunState σ}

theorem noted {event : Event} (h : state.Holds script results) (hevent : event.called? = none) :
    (state.noted event).Holds script results where
  called slot step answer hmem := by
    rcases List.mem_append.mp hmem with hmem | hmem
    · exact h.called slot step answer hmem
    · cases List.mem_singleton.mp hmem
      cases hevent
  get?_results uid huid := by
    have hnone : event.given? uid = none := by
      cases event with
      | call => cases hevent
      | _ => rfl
    simp [RunState.noted, h.get?_results uid huid, hnone]

theorem stored {key : Uid} {value : Json} (h : state.Holds script results)
    (hkey : key ∈ script.enterable) : (state.stored key value).Holds script results := by
  have hnoted : (state.noted (.store key value)).Holds script results := h.noted rfl
  refine ⟨hnoted.called, fun uid huid => ?_⟩
  have hne : uid ≠ key := by
    rintro rfl
    exact huid hkey
  simpa [RunState.stored, RunState.noted, hne] using hnoted.get?_results uid huid

theorem call {slot : RunnerSlot} {step : Step} {output : Json} {runners : σ}
    (h : state.Holds script results) (hstep : step.id ∈ script.steps.keys) :
    ((state.called slot step (.ok output) runners).stored step.id output).Holds script results where
  called slot' step' answer hmem := by
    simp only [RunState.stored, RunState.called, RunState.noted, List.append_assoc,
      List.cons_append, List.nil_append, List.mem_append, List.mem_cons, Event.call.injEq,
      reduceCtorEq, List.not_mem_nil, or_false] at hmem
    rcases hmem with hmem | ⟨-, rfl, -⟩
    · exact h.called slot' step' answer hmem
    · exact hstep
  get?_results uid huid := by
    rw [latest_given?_stored]
    change (state.results.insert step.id output).get? uid =
      (latest (Event.given? uid) (state.journal ++ [.call slot step (.ok output)])).or
        (results.get? uid)
    rw [latest_given?_append, Table.get?_insert, h.get?_results uid huid]
    split <;> rfl

end RunState.Holds

theorem Engine.Move.holds {engine : Engine σ} {moment next : Moment σ} {results : Table Json}
    (hmove : engine.Move moment next) (h : moment.state.Holds engine.script results) :
    next.state.Holds engine.script results := by
  cases hmove with
  | visitOperation | visitCondition | enterOperation | enterCondition | leave | read =>
    exact h.noted rfl
  | call _ hstep => exact h.call (Table.mem_keys_iff.mpr (by simp [Table.contains, hstep]))
  | storeCondition _ hrow => exact h.stored hrow.mem_enterable
  | storeOperation hfound => exact h.stored (Script.mem_enterable_of_operation hfound)
  | record => exact ⟨h.called, h.get?_results⟩

theorem Executor.holds_of_ok {executor : Executor σ} {script : Script} {results : Table Json}
    {runners : σ} (hok : (executor.executeFrom script results runners).1 = .ok ()) :
    (executor.executeFrom script results runners).2.Holds script results := by
  have hstart : RunState.Holds script results { results, runners } :=
    ⟨fun _ _ _ hmem => (nomatch hmem), fun _ _ => rfl⟩
  have hkeeps := executor.executeFrom_keeps script results runners
    (P := fun moment => moment.state.Holds script results) hstart fun _ _ hmove h => hmove.holds h
  rcases hend : executor.executeFrom script results runners with ⟨error | _, after⟩
  · rw [hend] at hok
    cases hok
  · rw [hend] at hkeeps
    exact hkeeps

theorem Executor.recorded_of_unanimous {executor : Executor σ} {script : Script}
    {results : Table Json} {runners : σ} (hapart : script.StepsApart)
    (hok : (executor.executeFrom script results runners).1 = .ok ())
    (hsteady : Unanimous (executor.executeFrom script results runners).2.journal) :
    Recorded (executor.executeFrom script results runners).2.results
      (executor.executeFrom script results runners).2.journal := by
  have hholds := Executor.holds_of_ok hok
  intro slot step output hmem
  have huid : step.id ∉ script.enterable := hapart _ (hholds.called slot step (.ok output) hmem)
  rw [hholds.get?_results step.id huid]
  cases hlatest : latest (Event.given? step.id)
      (executor.executeFrom script results runners).2.journal with
  | none =>
    have hgiven := latest_eq_none_iff.mp hlatest _ hmem
    simp [Event.given?] at hgiven
  | some given =>
    obtain ⟨event, hevent, hgiven⟩ := exists_of_latest_eq_some hlatest
    obtain ⟨slot', step', rfl, hid⟩ := exists_call_of_given? hgiven
    cases hsteady.answer_eq hmem hevent hid
    rfl

/-- The runner, failing where its output is not the recorded one. -/
def StepRunner.heldTo (outputs : Table Json) (runner : StepRunner σ) : StepRunner σ :=
  fun step state =>
    match runner step state with
    | (.ok output, after) =>
      if outputs.get? step.id = some output then (.ok output, after)
      else (.error "not as recorded", after)
    | (.error cause, after) => (.error cause, after)

namespace Executor

def heldTo (executor : Executor σ) (outputs : Table Json) : Executor σ :=
  { executor with
    runners := fun kind => (executor.runners kind).map (StepRunner.heldTo outputs)
    defaultRunner := executor.defaultRunner.map (StepRunner.heldTo outputs) }

/-- The recorded outputs in place of all runners. -/
def replaying (executor : Executor σ) (outputs : Table Json) : Executor σ where
  defaultRunner := some (Replay.ofOutputs outputs).runner
  policy := executor.policy
  maxDepth := executor.maxDepth

theorem runnerFor?_heldTo (executor : Executor σ) (outputs : Table Json) (kind : StepKind) :
    (executor.heldTo outputs).runnerFor? kind =
      (executor.runnerFor? kind).map fun found => (found.1, StepRunner.heldTo outputs found.2) := by
  simp only [runnerFor?, heldTo]
  cases executor.runners kind with
  | none => simp [Function.comp_def]
  | some runner => rfl

end Executor

structure RunState.Resembles (s t : RunState σ) : Prop where
  results_eq : s.results = t.results
  records_eq : s.records = t.records
  called_eq : s.journal.filterMap Event.called? = t.journal.filterMap Event.called?

namespace Coupling

/-- The runs are the same until the second one has an output that is not recorded. -/
def onRecord (outputs : Table Json) : Coupling σ :=
  equal (fun _ _ t => ¬ Recorded outputs t.journal) fun h hgrown hrecorded =>
    h fun slot step output hmem => hrecorded slot step output (hgrown.subset hmem)

def resembling : Coupling σ where
  Abreast := RunState.Resembles
  Parted _ _ _ := True
  noted event h := ⟨h.results_eq, h.records_eq, by simp [RunState.noted, h.called_eq]⟩
  stored uid value h :=
    ⟨by simp [RunState.stored, h.results_eq], h.records_eq,
      by simp [RunState.stored, RunState.noted, h.called_eq]⟩
  recorded record h := ⟨h.results_eq, by simp [RunState.recorded, h.records_eq], h.called_eq⟩
  grown _ _ := trivial

end Coupling

namespace Engine

variable (executor : Executor σ) (script : Script)

theorem outcome_runStep_heldTo (outputs : Table Json) (uid : Uid) (step : Step)
    (state : RunState σ) :
    let held := (runStep ⟨executor.heldTo outputs, script⟩ uid step).outcome state
    let free := (runStep ⟨executor, script⟩ uid step).outcome state
    (∃ error, held.1 = .error error ∧ (held = free ∨ ¬ Recorded outputs free.2.journal)) ∨
      ∃ slot output runners, outputs.get? uid = some output ∧ held = free ∧
        free = (.ok (),
          (state.called slot { step with id := uid } (.ok output) runners).stored uid output) := by
  intro held free
  simp only [held, free, outcome_runStep, executor.runnerFor?_heldTo]
  cases executor.runnerFor? step.kind with
  | none => exact .inl ⟨.noRunner step.kind, rfl, .inl rfl⟩
  | some found =>
    obtain ⟨slot, runner⟩ := found
    rcases hanswer : runner { step with id := uid } state.runners with ⟨cause | output, runners⟩
    · simp only [Option.map_some, StepRunner.heldTo, hanswer]
      exact .inl ⟨.step uid cause, rfl, .inl trivial⟩
    · by_cases hrecorded : outputs.get? uid = some output
      · simp only [Option.map_some, StepRunner.heldTo, hanswer, hrecorded, if_true]
        exact .inr ⟨slot, output, runners, rfl, trivial, rfl⟩
      · simp only [Option.map_some, StepRunner.heldTo, hanswer, hrecorded, if_false]
        refine .inl ⟨_, rfl, .inr fun h => hrecorded (h slot { step with id := uid } output ?_)⟩
        simp [RunState.stored, RunState.called, RunState.noted]

theorem outcome_runStep_replaying {outputs : Table Json} {uid : Uid} {output : Json}
    (hrecorded : outputs.get? uid = some output) (step : Step) (state : RunState σ) :
    (runStep ⟨executor.replaying outputs, script⟩ uid step).outcome state =
      (.ok (), (state.called .default { step with id := uid } (.ok output) state.runners).stored uid
        output) := by
  have hanswer : (Replay.ofOutputs outputs).answer { step with id := uid } = .ok output := by
    simp [Replay.answer, Replay.ofOutputs, hrecorded]
  rw [outcome_runStep]
  simp only [Executor.replaying, Executor.runnerFor?, Option.map_some, Replay.runner, hanswer]

/-- As long as its outputs are those of the record, a run does not notice that it is held to it. -/
theorem coupled_heldTo (outputs : Table Json) :
    Coupled (.onRecord outputs) (fun _ => True) ⟨executor.heldTo outputs, script⟩
      ⟨executor, script⟩ := by
  refine coupled_of_steps rfl rfl rfl (fun uid step => ⟨grows_runStep _ uid step, ?_⟩)
    (pairs_checkDepth_of_eq rfl) ?_ fun _ _ _ _ _ _ _ _ _ => trivial
  · rintro s t rfl
    rcases outcome_runStep_heldTo executor script outputs uid step s with
      ⟨error, herror, heq | hparted⟩ | ⟨slot, output, runners, -, heq, -⟩
    · rw [heq]
      exact .alike rfl
    · exact .of_error herror hparted
    · rw [heq]
      exact .alike rfl
  · rintro uid condition operation row owner - - - s t rfl
    rfl

/-- As long as a run that is held to the record does not fail, the record has all of its answers. -/
theorem coupled_replaying (outputs : Table Json) :
    Coupled .resembling (fun _ => True) ⟨executor.heldTo outputs, script⟩
      ⟨executor.replaying outputs, script⟩ := by
  refine coupled_of_steps rfl rfl rfl (fun uid step => ⟨grows_runStep _ uid step, ?_⟩)
    (pairs_checkDepth_of_eq rfl) ?_ fun _ _ _ _ _ _ _ _ _ => trivial
  · intro s t hst
    rcases outcome_runStep_heldTo executor script outputs uid step s with
      ⟨error, herror, -⟩ | ⟨slot, output, runners, hrecorded, heq, hfree⟩
    · exact .of_error herror trivial
    · rw [heq, hfree, outcome_runStep_replaying executor script hrecorded]
      exact .alike {
        results_eq := congrArg (Table.insert · uid output) hst.results_eq
        records_eq := hst.records_eq
        called_eq := by
          simp [RunState.stored, RunState.called, RunState.noted, hst.called_eq, Event.called?] }
  · rintro uid condition operation row owner - - - s t hst
    rw [hst.results_eq]

end Engine

/-- A successful run can be repeated from the results that it left, if its script has no step under
the key of an operation or a condition, and all calls for one step got the same answer: from the same
earlier results, with recorded outputs in place of all runners, it succeeds again, with the same
results, the same records and the same steps called in turn. -/
theorem Executor.replaying_executeFrom {executor : Executor σ} {script : Script}
    {results : Table Json} {runners : σ} (hapart : script.StepsApart) :
    let run := executor.executeFrom script results runners
    run.1 = .ok () → Unanimous run.2.journal → ∀ others,
      let again := (executor.replaying run.2.results).executeFrom script results others
      again.1 = .ok () ∧ again.2.results = run.2.results ∧ again.2.records = run.2.records ∧
        again.2.journal.filterMap Event.called? = run.2.journal.filterMap Event.called? := by
  intro run hok hsteady others again
  have hrecorded : Recorded run.2.results run.2.journal :=
    Executor.recorded_of_unanimous hapart hok hsteady
  -- Held to the record it left itself, the run is the same. So it does not fail, and the one that is
  -- given recorded outputs goes beside it to the end.
  let held := (executor.heldTo run.2.results).executeFrom script results runners
  have hheld : held = run := by
    have hends := (Engine.coupled_heldTo executor script run.2.results).executeFrom_ends rfl results
      runners runners rfl
    rcases hends.eq_or_parted (fun _ _ h => h) with heq | ⟨error, -, hparted⟩
    · exact heq
    · exact absurd hrecorded hparted
  have hends : Coupling.resembling.Ends held again :=
    (Engine.coupled_replaying executor script run.2.results).executeFrom_ends rfl results runners
      others ⟨rfl, rfl, rfl⟩
  rw [hheld] at hends
  generalize again = y at hends ⊢
  generalize run = x at hends hok ⊢
  cases hends with
  | alike hresembles =>
    exact ⟨hok, hresembles.results_eq.symm, hresembles.records_eq.symm, hresembles.called_eq.symm⟩
  | parted => cases hok

def Script.encore : Script where
  order := (OperationOrder.empty.insert "op_1").1
  operations := Table.ofList [
    ("op_1", .conditional {
      conditions := Table.ofList [
        ("cond_1", { left := some (.static (.bool true)), work := some "step_1" }),
        ("cond_2", {
          left := some (.internal "step_1" Operand.conditionKey), work := some "op_2" }),
        ("cond_3", { left := some (.internal "step_3" "output"), work := some "step_1" })]
      order := ["cond_1", "cond_2", "cond_3"] }),
    ("op_2", .conditional {
      conditions := Table.ofList [
        ("cond_4", { left := some (.static (.bool true)), work := some "step_2" })]
      order := ["cond_4"] })]
  steps := Table.ofList [
    ("step_1", ⟨"step_1", .native, .native .null, none, [], 0⟩),
    ("step_2", ⟨"step_2", .native, .native .null, none, [], 0⟩)]

def Executor.tallying : Executor Nat where
  runners kind :=
    if kind = .native then
      some fun step count =>
        (.ok (.object [("output", .object [("result", .bool (step.id = "step_1"))])]), count + 1)
    else none

/-- Three calls are answered again, with no need of the runner that counts. -/
theorem Script.encore_replaying_executeFrom :
    let results := Table.ofList [("step_3", .object [("output", .bool true)])]
    let run := Executor.tallying.executeFrom Script.encore results 0
    let again := (Executor.tallying.replaying run.2.results).executeFrom Script.encore results 7
    Script.encore.StepsApart ∧ run.1 = .ok () ∧ Unanimous run.2.journal ∧
      (run.2.journal.filterMap Event.called?).map Step.id = ["step_1", "step_2", "step_1"] ∧
      again.1 = .ok () ∧ again.2.results = run.2.results ∧ again.2.records = run.2.records ∧
      again.2.journal.filterMap Event.called? = run.2.journal.filterMap Event.called? ∧
      (run.2.runners, again.2.runners) = (3, 7) := by
  intro results run again
  have hapart : Script.encore.StepsApart := by decide
  have hok : run.1 = .ok () := by decide +kernel
  have hsteady : Unanimous run.2.journal := by decide +kernel
  have hcalls : (run.2.journal.filterMap Event.called?).map Step.id =
      ["step_1", "step_2", "step_1"] := by decide +kernel
  have hrunners : (run.2.runners, again.2.runners) = (3, 7) := by decide +kernel
  obtain ⟨hagain, hresults, hrecords, hcalled⟩ :=
    Executor.replaying_executeFrom hapart hok hsteady 7
  dsimp only [run, again] at *
  exact ⟨hapart, hok, hsteady, hcalls, hagain, hresults, hrecords, hcalled, hrunners⟩

end Workflow
