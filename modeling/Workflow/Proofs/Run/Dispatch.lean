import Workflow.Proofs.Run.Course
import Workflow.Proofs.Validation.WellFormed

set_option autoImplicit false

namespace Workflow

/-- Errors of a look-up in the tables of the script. -/
def RunError.isDispatch : RunError → Bool
  | .missingOperation _ | .unsupportedOperation .. | .missingCondition .. | .missingWork .. => true
  | _ => false

namespace Engine

variable {σ : Type} {engine : Engine σ}

theorem not_missingWork (h : engine.script.isValid) {uid condition work : Uid}
    {operation : Conditional} {row : ConditionRow}
    (hrow : engine.script.HasRow uid operation condition row) (hwork : row.work = some work) :
    ¬ (if WorkKind.of? work = some .operation then ¬ engine.script.operations.contains work
      else engine.script.steps.get? work = none) := by
  intro hmissing
  obtain ⟨hopens, hcontains⟩ | ⟨hopens, hcontains⟩ :=
    (Script.isValid_iff_wellFormed.mp h).work _ _ _ _ hrow _ hwork
  · simp [WorkKind.opens_iff.mp hopens] at hmissing
    simp [Table.contains, hmissing] at hcontains
  · simp only [WorkKind.opens_iff.mp hopens, if_true] at hmissing
    exact hmissing hcontains

theorem Fails.not_isDispatch (h : engine.script.isValid) {moment : Moment σ} {error : RunError}
    {after : RunState σ} (hfail : engine.Fails moment error after) : ¬ error.isDispatch := by
  have hwell := Script.isValid_iff_wellFormed.mp h
  cases hfail with
  | notListed hlisted hmissing => exact absurd (hwell.listed _ hlisted) hmissing
  | unsupported _ hfound => exact absurd hfound (hwell.conditional _ _)
  | missingCondition hoperation hlisted hmissing =>
    have hcontains := hwell.ordered _ _ hoperation _ hlisted
    simp [Table.contains, hmissing] at hcontains
  | missingWork hrow hwork hmissing => exact absurd hmissing (not_missingWork h hrow hwork)
  | cyclic | tooDeep | noResult | noField | noConditionField | noRunner | call =>
    simp [RunError.isDispatch]

end Engine

/-- Whatever the runners answer and from whatever results it starts, a run of a valid script never
fails for something that the script does not have or that cannot run. -/
theorem Script.not_isDispatch_of_isValid {σ : Type} {script : Script} (h : script.isValid)
    (executor : Executor σ) (results : Table Json) (runners : σ) {error : RunError}
    (herror : (executor.executeFrom script results runners).1 = .error error) :
    ¬ error.isDispatch := by
  have hreach := executor.executeFrom_reaches script results runners
  rcases hend : executor.executeFrom script results runners with ⟨cause | _, after⟩
  · rw [hend] at hreach herror
    obtain ⟨moment, -, hfail⟩ := hreach
    cases herror
    exact hfail.not_isDispatch h
  · rw [hend] at herror
    cases herror

/-- An operation that runs itself through the work of a condition that is only read by another one.
-/
def Script.circle : Script where
  order := (OperationOrder.empty.insert "op_1").1
  operations := Table.ofList [
    ("op_1", .conditional {
      conditions := Table.ofList [("cond_1", { work := some "op_2" })]
      order := ["cond_1"] }),
    ("op_2", .conditional {
      conditions := Table.ofList [
        ("cond_2", { left := some (.internal "cond_3" Operand.conditionKey) }),
        ("cond_3", { left := some (.static (.bool true)), work := some "op_1" })]
      order := ["cond_2"] })]

theorem Script.circle_not_isDispatch :
    Script.circle.isValid ∧
      (({} : Executor Unit).executeFrom Script.circle ∅ ()).1 = .error (.cyclicWork "op_1") ∧
      ¬ (RunError.cyclicWork "op_1").isDispatch :=
  have h : Script.circle.isValid := by decide
  ⟨h, rfl, Script.not_isDispatch_of_isValid h ({} : Executor Unit) ∅ () rfl⟩

end Workflow
