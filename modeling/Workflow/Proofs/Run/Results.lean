import Workflow.Proofs.Run.Failure
import Workflow.Proofs.Run.Replaying
import Workflow.Proofs.Run.Verdicts

set_option autoImplicit false

namespace Workflow

variable {σ : Type}

namespace Script

def conditionKeys (script : Script) : List Uid :=
  script.conditionals.flatMap fun entry => entry.2.conditions.keys

/-- No key is one of two kinds. -/
structure KeysApart (script : Script) : Prop where
  step_operation : ∀ uid ∈ script.steps.keys, uid ∉ script.operations.keys
  step_condition : ∀ uid ∈ script.steps.keys, uid ∉ script.conditionKeys
  operation_condition : ∀ uid ∈ script.operations.keys, uid ∉ script.conditionKeys

variable {script : Script} {uid : Uid}

theorem mem_enterable_iff :
    uid ∈ script.enterable ↔ uid ∈ script.operations.keys ∨ uid ∈ script.conditionKeys :=
  List.mem_append

theorem KeysApart.stepsApart (h : script.KeysApart) : script.StepsApart :=
  fun uid huid hmem => (mem_enterable_iff.mp hmem).elim (h.step_operation uid huid)
    (h.step_condition uid huid)

end Script

theorem RunState.Holds.latest_given?_eq_none {script : Script} {results : Table Json}
    {state : RunState σ} (h : state.Holds script results) {uid : Uid}
    (huid : uid ∉ script.steps.keys) : latest (Event.given? uid) state.journal = none := by
  refine latest_eq_none_iff.mpr fun event hmem => ?_
  cases hgiven : event.given? uid with
  | none => rfl
  | some output =>
    obtain ⟨slot, step, rfl, rfl⟩ := exists_call_of_given? hgiven
    exact absurd (h.called slot step (.ok output) hmem) huid

namespace Executor

variable (executor : Executor σ) (script : Script) (results : Table Json) (runners : σ)

theorem contains_of_contains {uid : Uid} (h : results.contains uid) :
    (executor.executeFrom script results runners).2.results.contains uid := by
  obtain ⟨frames, htold⟩ := executor.exists_told script results runners
  obtain ⟨value, hvalue⟩ := Option.isSome_iff_exists.mp h
  rw [Table.contains, ← htold.results_eq, get?_replayed, hvalue]
  cases latest (Event.stored? uid) (executor.executeFrom script results runners).2.journal <;> rfl

variable {executor script results runners}

theorem served_of_ok (hok : (executor.executeFrom script results runners).1 = .ok ()) :
    (executor.executeFrom script results runners).2.Served := by
  rcases executor.served_or_refused script results runners with
    ⟨hserved, -⟩ | ⟨error, _, _, _, _, herror, -⟩
  · exact hserved
  · exact nomatch hok.symm.trans herror

end Executor

/-- Let the keys of steps, operations and conditions differ. After a successful run all calls were
answered with outputs, and a step has the last one it was given as its result. The result of a
condition tells the outcome of its last evaluation, as it is listed by the run in which all
evaluations are told. What was not called or not evaluated has the result it had before. No result
is removed, and none is changed under what is no key. -/
theorem Executor.results_of_ok (executor : Executor σ) {script : Script} (hapart : script.KeysApart)
    (results : Table Json) (runners : σ) :
    let run := executor.executeFrom script results runners
    let told := executor.executeTold script results runners
    run = (told.1, told.2.plain) ∧
      (run.1 = .ok () →
        (∀ slot step answer, .call slot step answer ∈ run.2.journal →
          ∃ output, answer = .ok output) ∧
        (∀ uid ∈ script.steps.keys, run.2.results.get? uid =
          (latest (Event.given? uid) run.2.journal).or (results.get? uid)) ∧
        (∀ uid ∈ script.conditionKeys, run.2.results.get? uid =
          ((told.2.runners.2.lookup uid).map fun holds =>
            .object [("output", .object [("result", .bool holds)])]).or (results.get? uid)) ∧
        (∀ uid, results.contains uid → run.2.results.contains uid) ∧
        ∀ uid, uid ∉ script.steps.keys → uid ∉ script.operations.keys →
          uid ∉ script.conditionKeys → run.2.results.get? uid = results.get? uid) := by
  intro run told
  obtain ⟨hplain, hupholds⟩ := executor.executeFrom_eq_plain script results runners
  refine ⟨hplain, fun hok => ?_⟩
  have hserved : run.2.Served := Executor.served_of_ok hok
  have hholds : run.2.Holds script results := Executor.holds_of_ok hok
  have hresults : run.2.results = told.2.results := congrArg (RunState.results ∘ Prod.snd) hplain
  refine ⟨fun slot step answer hmem => ?_, fun uid huid => ?_, fun uid huid => ?_, fun uid => ?_,
    fun uid hstep hoperation hcondition => ?_⟩
  · cases answer with
    | ok output => exact ⟨output, rfl⟩
    | error cause => exact absurd hmem (hserved slot step cause)
  · exact hholds.get?_results uid (hapart.stepsApart uid huid)
  · rw [hresults]
    exact hupholds uid (fun hstep => hapart.step_condition uid hstep huid)
      fun hoperation => hapart.operation_condition uid hoperation huid
  · exact executor.contains_of_contains script results runners
  · have houtside : uid ∉ script.enterable := by
      simp [Script.mem_enterable_iff, hoperation, hcondition]
    rw [hholds.get?_results uid houtside, hholds.latest_given?_eq_none hstep]
    rfl

def Script.revising : Script where
  order := (OperationOrder.empty.insert "op_1").1
  operations := Table.ofList [
    ("op_1", .conditional {
      conditions := Table.ofList [
        ("cond_1", {
          operator := some .not
          left := some (.internal "step_1" "output")
          work := some "step_1" }),
        ("cond_2", {
          operator := some .and
          left := some (.internal "cond_1" Operand.conditionKey)
          right := some (.internal "cond_3" Operand.conditionKey) }),
        ("cond_3", { work := some "step_2" })]
      order := ["cond_1", "cond_2"] })]
  steps := Table.ofList [
    ("step_1", ⟨"step_1", .native, .native .null, none, [], 0⟩),
    ("step_2", ⟨"step_2", .native, .native .null, none, [], 0⟩)]

theorem Script.revising_results_of_ok :
    let executor : Executor Nat :=
      { defaultRunner := some fun _ count => (.ok (.object [("output", .bool true)]), count + 1) }
    let before := Table.ofList [
      ("step_1", .object [("output", .bool false)]), ("step_2", .string "kept"),
      ("cond_1", .string "lost"), ("cond_3", .string "kept"), ("other", .string "kept")]
    let run := executor.executeFrom Script.revising before 0
    let told := executor.executeTold Script.revising before 0
    run.1 = .ok () ∧ run.2.runners = 1 ∧
      told.2.runners = (1, [("cond_2", false), ("cond_1", false), ("cond_1", true)]) ∧
      run.2.results.get? "step_1" = some (.object [("output", .bool true)]) ∧
      run.2.results.get? "step_2" = some (.string "kept") ∧
      run.2.results.get? "cond_1" =
        some (.object [("output", .object [("result", .bool false)])]) ∧
      run.2.results.get? "cond_3" = some (.string "kept") ∧ run.2.results.contains "cond_3" ∧
      run.2.results.get? "other" = some (.string "kept") := by
  intro executor before run told
  have hapart : Script.revising.KeysApart := ⟨by decide, by decide, by decide⟩
  have hok : run.1 = .ok () := by decide +kernel
  have hcount : run.2.runners = 1 := by decide +kernel
  have htold : told.2.runners = (1, [("cond_2", false), ("cond_1", false), ("cond_1", true)]) := by
    decide +kernel
  have hlast : latest (Event.given? "step_1") run.2.journal =
      some (.object [("output", .bool true)]) := by decide +kernel
  have hnone : latest (Event.given? "step_2") run.2.journal = none := by decide +kernel
  obtain ⟨-, haccount⟩ := executor.results_of_ok hapart before 0
  obtain ⟨-, hsteps, hconditions, hkept, hothers⟩ := haccount hok
  have hfirst := hsteps "step_1" (by decide)
  have hsecond := hsteps "step_2" (by decide)
  have hread := hconditions "cond_1" (by decide)
  have hskipped := hconditions "cond_3" (by decide)
  rw [hlast] at hfirst
  rw [hnone] at hsecond
  rw [htold] at hread hskipped
  exact ⟨hok, hcount, htold, hfirst, hsecond, hread, hskipped, hkept "cond_3" (by decide),
    hothers "other" (by decide) (by decide) (by decide)⟩

end Workflow
