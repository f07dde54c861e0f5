import Workflow.Proofs.Run.Course
import Workflow.Proofs.Run.Journal

/-!
Steps run only by permission. The journal of a run tells at every moment which frames are open and
what the results are; whenever a runner is called, an operation that is open has a condition with
this step as its work, and the results say that the condition holds.
-/

set_option autoImplicit false

namespace Workflow

def Script.Orderly (script : Script) (results : Table Json) (journal : List Event) : Prop :=
  ∀ before slot step answer after, journal = before ++ .call slot step answer :: after →
    script.Permits (openFrames before) (replayed results before) step.id

namespace Script.Orderly

variable {script : Script} {results : Table Json} {journal : List Event}

theorem iff_lawful : script.Orderly results journal ↔
    Lawful (fun before event => ∀ slot step answer, event = .call slot step answer →
      script.Permits (openFrames before) (replayed results before) step.id) journal := by
  constructor
  · rintro h before event after heq slot step answer rfl
    exact h before slot step answer after heq
  · intro h before slot step answer after heq
    exact h before _ after heq slot step answer rfl

theorem nil : script.Orderly results [] := iff_lawful.mpr .nil

theorem append {event : Event} (h : script.Orderly results journal)
    (hlast : ∀ slot step answer, event = .call slot step answer →
      script.Permits (openFrames journal) (replayed results journal) step.id) :
    script.Orderly results (journal ++ [event]) :=
  iff_lawful.mpr ((iff_lawful.mp h).append hlast)

end Script.Orderly

/-- A moment whose journal tells its frames and its results, and permits all calls that it holds. -/
structure Moment.Told {σ : Type} (script : Script) (results : Table Json) (moment : Moment σ) :
    Prop where
  frames_eq : openFrames moment.state.journal = moment.frames
  results_eq : replayed results moment.state.journal = moment.state.results
  orderly : script.Orderly results moment.state.journal

namespace Engine

variable {σ : Type} {engine : Engine σ} {results : Table Json}

theorem told_of_note {moment next : Moment σ} {event : Event}
    (h : moment.Told engine.script results)
    (hjournal : next.state.journal = moment.state.journal ++ [event])
    (hframes : event.openAfter moment.frames = next.frames)
    (hresults : event.resultsAfter moment.state.results = next.state.results)
    (hcall : ∀ slot step answer, event = .call slot step answer →
      engine.script.Permits moment.frames moment.state.results step.id) :
    next.Told engine.script results where
  frames_eq := by rw [hjournal, openFrames_append, h.frames_eq, hframes]
  results_eq := by rw [hjournal, replayed_append, h.results_eq, hresults]
  orderly := by
    rw [hjournal]
    refine h.orderly.append fun slot step answer heq => ?_
    rw [h.frames_eq, h.results_eq]
    exact hcall slot step answer heq

theorem Move.told {moment next : Moment σ} (hmove : engine.Move moment next)
    (h : moment.Told engine.script results) : next.Told engine.script results := by
  cases hmove with
  | visitOperation | visitCondition | enterOperation | enterCondition | read =>
    exact told_of_note h rfl rfl rfl (by simp)
  | leave => exact told_of_note h rfl (by simp [Event.openAfter]) rfl (by simp)
  | storeCondition | storeOperation => exact told_of_note h rfl rfl rfl (by simp)
  | record => exact ⟨h.frames_eq, h.results_eq, h.orderly⟩
  | @call frames state work step slot runner output runners hpermits hstep hrunner hanswer =>
    have hcalled : Moment.Told engine.script results
        ⟨frames, state.called slot { step with id := work } (.ok output) runners⟩ :=
      told_of_note h rfl rfl rfl (by rintro _ _ _ ⟨⟩; exact hpermits)
    exact told_of_note hcalled rfl rfl rfl (by simp)

theorem Fails.told {moment : Moment σ} {error : RunError} {after : RunState σ}
    (hfail : engine.Fails moment error after) (h : moment.Told engine.script results) :
    Moment.Told engine.script results ⟨moment.frames, after⟩ := by
  cases hfail with
  | call hpermits hstep hrunner hanswer =>
    exact told_of_note h rfl rfl rfl (by rintro _ _ _ ⟨⟩; exact hpermits)
  | notListed | unsupported | missingCondition | missingWork | cyclic | tooDeep | noResult
  | noField | noConditionField | noRunner => exact h

end Engine

theorem Executor.exists_told {σ : Type} (executor : Executor σ) (script : Script)
    (results : Table Json) (runners : σ) :
    ∃ frames, Moment.Told script results
      ⟨frames, (executor.executeFrom script results runners).2⟩ :=
  executor.exists_frames script results runners ⟨rfl, rfl, .nil⟩
    (fun _ _ hmove h => hmove.told h) fun _ _ _ hfail h => hfail.told h

/-- In every run, whether it succeeds or fails, what was stored makes up the results, and whenever a
runner is called for a step, an operation that was entered and not left has a condition with this
step as its work, and the results of that moment say that the condition holds. -/
theorem Executor.call_permitted {σ : Type} (executor : Executor σ) (script : Script)
    (results : Table Json) (runners : σ) :
    let final := (executor.executeFrom script results runners).2
    final.results = replayed results final.journal ∧
      ∀ before slot step answer after,
        final.journal = before ++ .call slot step answer :: after →
        ∃ uid operation condition row, .operation uid ∈ openFrames before ∧
          script.operations.get? uid = some (.conditional operation) ∧
          operation.conditions.get? condition = some row ∧ row.work = some step.id ∧
          (replayed results before).get? condition =
            some (.object [("output", .object [("result", .bool true)])]) := by
  intro final
  obtain ⟨frames, htold⟩ := executor.exists_told script results runners
  refine ⟨htold.results_eq.symm, fun before slot step answer after heq => ?_⟩
  obtain ⟨uid, operation, condition, row, hopen, hrow, hwork, hholds⟩ :=
    htold.orderly before slot step answer after heq
  exact ⟨uid, operation, condition, row, hopen, hrow.get_operation, hrow.get_row, hwork, hholds⟩

def Script.nestedStep : Script where
  order := (OperationOrder.empty.insert "op_1").1
  operations := Table.ofList [("op_1", .conditional {
    conditions := Table.ofList [
      ("cond_1", {
        operator := some .and
        left := some (.internal "cond_2" Operand.conditionKey)
        right := some (.static (.bool true)) }),
      ("cond_2", { left := some (.static (.bool true)), work := some "step_1" })]
    order := ["cond_1"] })]
  steps := Table.ofList [("step_1", ⟨"step_1", .native, .native .null, none, [], 0⟩)]

def Executor.failing : Executor Unit where
  defaultRunner := some fun _ _ => (.error "refused", ())

theorem Script.nestedStep_call_permitted :
    let final := (Executor.failing.executeFrom Script.nestedStep ∅ ()).2
    let before : List Event := [
      .visit (.operation "op_1") 0, .enter (.operation "op_1"),
      .visit (.condition "cond_1") 0, .enter (.condition "cond_1"),
      .visit (.condition "cond_2") 1, .enter (.condition "cond_2"),
      .leave (.condition "cond_2"),
      .store "cond_2" (.object [("output", .object [("result", .bool true)])])]
    let step : Step := ⟨"step_1", .native, .native .null, none, [], 0⟩
    final.journal = before ++ [.call .default step (.error "refused")] ∧
      ∃ uid operation condition row, .operation uid ∈ openFrames before ∧
        Script.nestedStep.operations.get? uid = some (.conditional operation) ∧
        operation.conditions.get? condition = some row ∧ row.work = some step.id ∧
        (replayed ∅ before).get? condition =
          some (.object [("output", .object [("result", .bool true)])]) := by
  intro final before step
  have hjournal : final.journal = before ++ [.call .default step (.error "refused")] := rfl
  exact ⟨hjournal, (Executor.failing.call_permitted Script.nestedStep ∅ ()).2 before .default step
    (.error "refused") [] hjournal⟩

end Workflow
