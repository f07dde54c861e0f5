import Workflow.Proofs.Run.Course

set_option autoImplicit false

namespace Workflow

variable {σ : Type}

/-- A record of a row of the script, with a trace from which all else in it follows: whether the
condition held, and so whether it names the work of the row, if there is some. -/
structure TraceRecord.Accurate (script : Script) (record : TraceRecord) : Prop where
  explained : record.trace.Explained
  matched_eq : record.matched = record.trace.holds
  work_eq : ∃ operation row, script.HasRow record.operation operation record.condition row ∧
    record.work = if record.matched then row.work else none

def RunState.Accurate (script : Script) (state : RunState σ) : Prop :=
  ∀ record ∈ state.records, record.Accurate script

namespace Engine

variable {engine : Engine σ} {moment next : Moment σ} {error : RunError} {after : RunState σ}

theorem Move.accurate (hmove : engine.Move moment next)
    (h : moment.state.Accurate engine.script) : next.state.Accurate engine.script := by
  cases hmove with
  | @record frames state uid condition operation row trace _ hrow _ hexplained =>
    refine List.forall_mem_append.mpr ⟨h, List.forall_mem_singleton.mpr ?_⟩
    exact ⟨hexplained, rfl, operation, row, hrow, rfl⟩
  | visitOperation | visitCondition | enterOperation | enterCondition | leave | read | call
  | storeCondition | storeOperation => exact h

theorem Fails.records_eq (hfail : engine.Fails moment error after) :
    after.records = moment.state.records := by
  cases hfail <;> rfl

end Engine

/-- Every record of a run was made for a row of the script. Each part of its trace came to what its
operator makes of the parts below, it says that the condition held if the whole trace does, and it
names work if then the row has some. -/
theorem Executor.record_accurate (executor : Executor σ) (script : Script) (results : Table Json)
    (runners : σ) :
    ∀ record ∈ (executor.executeFrom script results runners).2.records,
      record.Accurate script := by
  obtain ⟨_, haccurate⟩ := executor.exists_frames script results runners
    (P := fun moment => moment.state.Accurate script) (fun _ hmem => nomatch hmem)
    (fun _ _ hmove h => hmove.accurate h)
    (fun _ _ _ hfail h record hmem => h record (hfail.records_eq ▸ hmem))
  exact haccurate

def Script.decisive : Script where
  order := (OperationOrder.empty.insert "op_1").1
  operations := Table.ofList [
    ("op_1", .conditional {
      conditions := Table.ofList [
        ("cond_1", {
          operator := some .and
          left := some (.static (.string ""))
          right := some (.internal "step_9" "output") }),
        ("cond_2", {
          operator := some .not
          left := some (.internal "cond_1" Operand.conditionKey) }),
        ("cond_3", {
          operator := some .or
          left := some (.internal "cond_2" Operand.conditionKey)
          right := some (.internal "step_9" "output")
          work := some "step_1" }),
        ("cond_4", { work := some "step_2" })]
      order := ["cond_3", "cond_4"] })]
  steps := Table.ofList [
    ("step_1", ⟨"step_1", .native, .native .null, none, [], 0⟩),
    ("step_2", ⟨"step_2", .native, .native .null, none, [], 0⟩)]

/-- The work of the last condition fails, and the record of the one before is left. -/
theorem Script.decisive_record_accurate :
    let executor : Executor Unit :=
      { defaultRunner := some fun step _ =>
          (if step.id = "step_2" then .error "refused" else .ok .null, ()) }
    let run := executor.executeFrom Script.decisive ∅ ()
    let trace : Trace :=
      .binary .or
        (.unary .not (.binary .and (.leaf "\"\"" (.string "")) .notEvaluated false) true)
        .notEvaluated true
    run.1 = .error (.step "step_2" "refused") ∧
      run.2.records = [⟨"op_1", "cond_3", trace, true, some "step_1"⟩] ∧ trace.Explained ∧
      true = trace.holds ∧
      ∃ operation row, Script.decisive.HasRow "op_1" operation "cond_3" row ∧
        some "step_1" = row.work := by
  intro executor run trace
  have hrecords : run.2.records = [⟨"op_1", "cond_3", trace, true, some "step_1"⟩] := rfl
  have haccurate := executor.record_accurate Script.decisive ∅ () _
    (hrecords ▸ List.mem_singleton_self _)
  exact ⟨rfl, hrecords, haccurate.explained, haccurate.matched_eq, haccurate.work_eq⟩

end Workflow
