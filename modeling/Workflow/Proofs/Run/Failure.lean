import Workflow.Proofs.Run.Course
import Workflow.Proofs.Run.Journal

set_option autoImplicit false

namespace Workflow

variable {σ : Type}

def RunState.Served (state : RunState σ) : Prop :=
  ∀ slot step cause, .call slot step (.error cause) ∉ state.journal

namespace Engine

variable {engine : Engine σ} {moment next : Moment σ} {error : RunError} {after : RunState σ}

/-- A run that ended as the call of a runner failed. The call was made for the work of a condition,
it is the first that failed, and nothing happened after it: the journal ends with it, and the runners
are as it left them. -/
structure Refused (engine : Engine σ) (error : RunError) (after : RunState σ)
    (before : List Event) (slot : RunnerSlot) (step : Step) (cause : String) : Prop where
  error_eq : error = .step step.id cause
  journal_eq : after.journal = before ++ [.call slot step (.error cause)]
  served : ∀ slot step cause, .call slot step (.error cause) ∉ before
  answer : ∃ runner state, engine.executor.runnerFor? step.kind = some (slot, runner) ∧
    runner step state = (.error cause, after.runners)
  work : ∃ uid operation condition row, engine.script.HasRow uid operation condition row ∧
    row.work = some step.id

theorem Refused.eq_of_append {before front back : List Event} {slot slot' : RunnerSlot}
    {step step' : Step} {cause cause' : String}
    (h : engine.Refused error after before slot step cause)
    (heq : after.journal = front ++ .call slot' step' (.error cause') :: back) :
    back = [] ∧ slot' = slot ∧ step' = step ∧ cause' = cause := by
  rw [h.journal_eq] at heq
  rcases eq_last_or_of_append heq with ⟨hback, -, hlast⟩ | ⟨middle, rfl⟩
  · cases hlast
    exact ⟨hback, rfl, rfl, rfl⟩
  · -- A call behind which something stands is one of those before the last, which had outputs.
    exact absurd (List.mem_append_right _ List.mem_cons_self) (h.served slot' step' cause')

theorem Move.served (hmove : engine.Move moment next) (h : moment.state.Served) :
    next.state.Served := by
  intro slot step cause hmem
  cases hmove with
  | visitOperation | visitCondition | enterOperation | enterCondition | leave | read | call
  | storeCondition | storeOperation | record =>
    refine h slot step cause ?_
    simpa [RunState.noted, RunState.stored, RunState.called, RunState.recorded] using hmem

theorem Fails.served_or_refused (hfail : engine.Fails moment error after)
    (h : moment.state.Served) :
    (after.Served ∧ ∀ uid cause, error ≠ .step uid cause) ∨
      ∃ before slot step cause, engine.Refused error after before slot step cause := by
  cases hfail with
  | @call frames state work step slot runner cause runners hpermits hstep hrunner hanswer =>
    obtain ⟨uid, operation, condition, row, -, hrow, hwork, -⟩ := hpermits
    exact .inr ⟨state.journal, slot, { step with id := work }, cause, {
      error_eq := rfl
      journal_eq := rfl
      served := h
      answer := ⟨runner, state.runners, hrunner, hanswer⟩
      work := ⟨uid, operation, condition, row, hrow, hwork⟩ }⟩
  | notListed | unsupported | missingCondition | missingWork | cyclic | tooDeep | noResult
  | noField | noConditionField | noRunner =>
    exact .inl ⟨h, by simp⟩

end Engine

theorem Executor.served_or_refused (executor : Executor σ) (script : Script)
    (results : Table Json) (runners : σ) :
    let run := executor.executeFrom script results runners
    (run.2.Served ∧ ∀ uid cause, run.1 ≠ .error (.step uid cause)) ∨
      ∃ error before slot step cause, run.1 = .error error ∧
        Engine.Refused ⟨executor, script⟩ error run.2 before slot step cause := by
  intro run
  have hstart : RunState.Served (σ := σ) { results, runners } := fun _ _ _ hmem => nomatch hmem
  have hkeeps := executor.executeFrom_keeps script results runners
    (P := fun moment => moment.state.Served) hstart fun _ _ hmove h => hmove.served h
  rcases hend : executor.executeFrom script results runners with ⟨error | _, after⟩
  · rw [hend] at hkeeps
    obtain ⟨moment, hmoment, hfail⟩ := hkeeps
    simp only [run, hend]
    rcases hfail.served_or_refused hmoment with ⟨hserved, hne⟩ | ⟨before, slot, step, cause, h⟩
    · exact .inl ⟨hserved, by simpa using hne⟩
    · exact .inr ⟨error, before, slot, step, cause, rfl, h⟩
  · rw [hend] at hkeeps
    simp only [run, hend]
    exact .inl ⟨hkeeps, by simp⟩

/-- A run ends with the error of a step if and only if the call of a runner failed. Nothing follows a
call that failed, neither in the journal nor for the runners; it was made for the work of a
condition, and the error of the run has the identifier of that work and the cause that the runner
gave. So in a run that succeeds every call gave an output. -/
theorem Executor.step_error_iff (executor : Executor σ) (script : Script) (results : Table Json)
    (runners : σ) :
    let run := executor.executeFrom script results runners
    ((∃ uid cause, run.1 = .error (.step uid cause)) ↔
      ∃ slot step cause, .call slot step (.error cause) ∈ run.2.journal) ∧
    (∀ before slot step cause after,
      run.2.journal = before ++ .call slot step (.error cause) :: after →
      after = [] ∧ run.1 = .error (.step step.id cause) ∧
        (∃ runner state, executor.runnerFor? step.kind = some (slot, runner) ∧
          runner step state = (.error cause, run.2.runners)) ∧
        ∃ uid operation condition row, script.HasRow uid operation condition row ∧
          row.work = some step.id) ∧
    (run.1 = .ok () → ∀ slot step answer, .call slot step answer ∈ run.2.journal →
      ∃ output, answer = .ok output) := by
  intro run
  rcases executor.served_or_refused script results runners with
    ⟨hserved, hne⟩ | ⟨error, front, slot, step, cause, herror, hrefused⟩
  · refine ⟨⟨?_, ?_⟩, ?_, fun _ slot step answer hmem => ?_⟩
    · rintro ⟨uid, cause, herror⟩
      exact absurd herror (hne uid cause)
    · rintro ⟨slot, step, cause, hmem⟩
      exact absurd hmem (hserved slot step cause)
    · intro before slot step cause after heq
      exact absurd (heq ▸ List.mem_append_right _ List.mem_cons_self) (hserved slot step cause)
    · cases answer with
      | ok output => exact ⟨output, rfl⟩
      | error cause => exact absurd hmem (hserved slot step cause)
  · have hstep : run.1 = .error (.step step.id cause) := hrefused.error_eq ▸ herror
    refine ⟨⟨fun _ => ⟨slot, step, cause, ?_⟩, fun _ => ⟨step.id, cause, hstep⟩⟩, ?_, fun hok => ?_⟩
    · rw [hrefused.journal_eq]
      exact List.mem_append_right _ List.mem_cons_self
    · intro before slot' step' cause' after heq
      obtain ⟨hnil, rfl, rfl, rfl⟩ := hrefused.eq_of_append heq
      exact ⟨hnil, hstep, hrefused.answer, hrefused.work⟩
    · exact nomatch hok.symm.trans hstep

def Script.sandwich : Script where
  order := (OperationOrder.empty.insert "op_1").1
  operations := Table.ofList [
    ("op_1", .conditional {
      conditions := Table.ofList [
        ("cond_1", { left := some (.static (.bool true)), work := some "step_1" }),
        ("cond_2", {
          operator := some .or
          left := some (.internal "cond_3" Operand.conditionKey)
          work := some "step_3" }),
        ("cond_3", { left := some (.static (.bool true)), work := some "op_2" })]
      order := ["cond_1", "cond_2"] }),
    ("op_2", .conditional {
      conditions := Table.ofList [
        ("cond_4", { left := some (.static (.bool true)), work := some "step_2" })]
      order := ["cond_4"] })]
  steps := Table.ofList [
    ("step_1", ⟨"step_1", .native, .native .null, none, [], 0⟩),
    ("step_2", ⟨"step_2", .native, .native .null, none, [], 0⟩),
    ("step_3", ⟨"step_3", .native, .native .null, none, [], 0⟩)]

def Executor.refusing (uid : Uid) : Executor Nat where
  defaultRunner := some fun step count =>
    (if step.id = uid then .error "refused" else .ok .null, count + 1)

theorem Script.sandwich_step_error_iff :
    let run := (Executor.refusing "step_2").executeFrom Script.sandwich ∅ 0
    let other := (Executor.refusing "step_4").executeFrom Script.sandwich ∅ 0
    let step : Step := ⟨"step_2", .native, .native .null, none, [], 0⟩
    run.2.journal = run.2.journal.dropLast ++ [.call .default step (.error "refused")] ∧
      run.1 = .error (.step "step_2" "refused") ∧ run.2.runners = 2 ∧
      (∃ uid operation condition row, Script.sandwich.HasRow uid operation condition row ∧
        row.work = some "step_2") ∧
      other.1 = .ok () ∧ other.2.runners = 3 ∧
      ∀ slot step answer, .call slot step answer ∈ other.2.journal →
        ∃ output, answer = .ok output := by
  intro run other step
  have hjournal :
      run.2.journal = run.2.journal.dropLast ++ [.call .default step (.error "refused")] := rfl
  obtain ⟨-, hlast, -⟩ := (Executor.refusing "step_2").step_error_iff Script.sandwich ∅ 0
  obtain ⟨-, -, houtputs⟩ := (Executor.refusing "step_4").step_error_iff Script.sandwich ∅ 0
  obtain ⟨-, herror, -, hwork⟩ := hlast _ _ _ _ _ hjournal
  exact ⟨hjournal, herror, rfl, hwork, rfl, rfl, houtputs rfl⟩

end Workflow
