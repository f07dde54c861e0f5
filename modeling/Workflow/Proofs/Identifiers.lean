import Workflow.Proofs.Run.Coupling
import Workflow.Validation.Rule

set_option autoImplicit false

namespace Workflow

namespace Script

/-- The script with the identifiers inside of its entries left blank. -/
def withoutIds (script : Script) : Script where
  order := script.order
  operations := script.operations.map fun _ => Operation.withId ""
  steps := script.steps.map fun _ step => { step with id := "" }

theorem withoutIds_restoreIds (script : Script) :
    script.restoreIds.withoutIds = script.withoutIds := by
  simp only [withoutIds, restoreIds, Table.map_map]
  congr 2
  funext uid operation
  cases operation <;> rfl

theorem conditionals_withoutIds (script : Script) :
    script.withoutIds.conditionals =
      script.conditionals.map fun entry => (entry.1, { entry.2 with id := "" }) := by
  simp only [conditionals, withoutIds, Table.map, List.filterMap_map, List.map_filterMap]
  congr 1
  funext entry
  obtain ⟨uid, operation⟩ := entry
  cases operation <;> rfl

theorem rows_withoutIds (script : Script) : script.withoutIds.rows = script.rows := by
  simp only [rows, conditionals_withoutIds, List.flatMap_map]

end Script

/-- What is wrong and where. -/
def Issue.spot (issue : Issue) : String × String := (issue.code, issue.path)

@[simp] theorem Operation.dependsOn_withId (uid : Uid) (operation : Operation) :
    (operation.withId uid).dependsOn = operation.dependsOn := by
  cases operation <;> rfl

namespace Rule

theorem unusedSteps_withoutIds (script : Script) :
    unusedSteps script.withoutIds = unusedSteps script := by
  simp only [unusedSteps, script.rows_withoutIds]
  simp only [Script.withoutIds, Table.map, List.filterMap_map]
  rfl

theorem brokenDependencies_withoutIds (script : Script) (dependent : Dependent)
    (uids : List Uid) :
    brokenDependencies script.withoutIds dependent uids =
      brokenDependencies script dependent uids := by
  simp [brokenDependencies, Script.withoutIds]

theorem dependencyIssues_withoutIds (script : Script) :
    dependencyIssues script.withoutIds = dependencyIssues script := by
  simp only [dependencyIssues, brokenDependencies_withoutIds]
  simp [Script.withoutIds, Table.map, List.flatMap_map]

theorem exposes?_withoutIds (script : Script) (operation : Conditional) (owner : Uid)
    (key : String) : exposes? script.withoutIds { operation with id := "" } owner key =
      exposes? script operation owner key := by
  cases hkind : WorkKind.of? owner with
  | none => simp only [exposes?, hkind]
  | some kind =>
    cases kind with
    | condition => simp only [exposes?, hkind]
    | step => simp [exposes?, hkind, Script.withoutIds, Function.comp_def]
    | operation => simp [exposes?, hkind, Script.withoutIds]

theorem map_spot_brokenOperand (script : Script) (operation : Conditional) (place : OperandPlace)
    (operand : Option Operand) :
    (brokenOperand script.withoutIds { operation with id := "" }
        { place with operationId := "" } operand).map Issue.spot =
      (brokenOperand script operation place operand).map Issue.spot := by
  match operand with
  | none => rfl
  | some (.static value) => rfl
  | some (.internal owner key) =>
    simp only [brokenOperand, exposes?_withoutIds]
    rcases exposes? script operation owner key with _ | (_ | _) <;> rfl

theorem brokenWork_withoutIds (script : Script) (operation condition : Uid) (work : Option Uid) :
    brokenWork script.withoutIds operation condition work =
      brokenWork script operation condition work := by
  have hcontains : script.withoutIds.containsWork = script.containsWork := by
    funext uid
    simp [Script.containsWork, Script.withoutIds]
  simp only [brokenWork, hcontains]

theorem map_spot_referenceIssues (script : Script) :
    (referenceIssues script.withoutIds).map Issue.spot =
      (referenceIssues script).map Issue.spot := by
  simp only [referenceIssues, script.conditionals_withoutIds, List.flatMap_map, List.map_flatMap,
    brokenReferences, List.map_append, brokenWork_withoutIds]
  congr 1
  funext entry
  obtain ⟨uid, operation⟩ := entry
  congr 1
  funext found
  obtain ⟨condition, row⟩ := found
  rw [← map_spot_brokenOperand script operation ⟨uid, operation.id, condition, .left⟩ row.left,
    ← map_spot_brokenOperand script operation ⟨uid, operation.id, condition, .right⟩ row.right]

theorem orderIssues_withoutIds (script : Script) :
    orderIssues script.withoutIds = orderIssues script := by
  simp only [orderIssues, script.rows_withoutIds, script.conditionals_withoutIds, List.flatMap_map]
  simp only [Script.withoutIds, Table.contains_map, Table.keys_map]
  rfl

theorem kindIssues_withoutIds (script : Script) :
    kindIssues script.withoutIds = kindIssues script := by
  simp only [kindIssues, Script.withoutIds, Table.map, List.filterMap_map]
  congr 1
  funext entry
  obtain ⟨uid, operation⟩ := entry
  cases operation <;> rfl

theorem map_spot_check (rule : Rule) (script : Script) :
    (rule.check script.withoutIds).map Issue.spot = (rule.check script).map Issue.spot := by
  cases rule with
  | usedSteps => exact congrArg _ (unusedSteps_withoutIds script)
  | dependencies => exact congrArg _ (dependencyIssues_withoutIds script)
  | references => exact map_spot_referenceIssues script
  | order => exact congrArg _ (orderIssues_withoutIds script)
  | operationKind => exact congrArg _ (kindIssues_withoutIds script)

end Rule

theorem Script.map_spot_issues (script : Script) :
    script.withoutIds.issues.map Issue.spot = script.issues.map Issue.spot := by
  simp only [issues, check, List.map_flatMap, Rule.map_spot_check]

variable {σ : Type}

theorem Operation.alike_withId (uid : Uid) (operation : Operation) :
    (operation.withId uid).Alike operation := by
  cases operation with
  | conditional operation => exact .conditional rfl rfl
  | unsupported operation => exact .unsupported rfl

theorem Engine.coupled_withoutIds (executor : Executor σ) (script : Script) :
    Coupled .same (fun _ => True) ⟨executor, script.withoutIds⟩ ⟨executor, script⟩ := by
  refine coupled_equal executor (fun uid => ?_) fun uid => ?_
  · simp only [Script.withoutIds, Table.get?_map]
    cases script.operations.get? uid with
    | none => exact .neither
    | some operation => exact .both (operation.alike_withId "")
  · simp only [Script.withoutIds, Table.get?_map]
    cases script.steps.get? uid with
    | none => exact .neither
    | some step => exact .both rfl

theorem Executor.executeFrom_withoutIds (executor : Executor σ) (script : Script)
    (results : Table Json) (runners : σ) :
    executor.executeFrom script.withoutIds results runners =
      executor.executeFrom script results runners := by
  have hends := (Engine.coupled_withoutIds executor script).executeFrom_ends rfl results
    runners runners rfl
  rcases hends.eq_or_parted (fun _ _ h => h) with heq | ⟨error, -, hparted⟩
  · exact heq
  · exact hparted.elim

/-- Scripts that differ at most in the identifiers inside of their entries run alike in all respects,
with every executor from all results: they end alike, in the same state, with the same journal of
calls. And the same breaches are found in both at the same places. -/
theorem Script.executeFrom_and_issues_eq {a b : Script} (h : a.withoutIds = b.withoutIds)
    (executor : Executor σ) (results : Table Json) (runners : σ) :
    executor.executeFrom a results runners = executor.executeFrom b results runners ∧
      a.issues.map Issue.spot = b.issues.map Issue.spot := by
  constructor
  · rw [← executor.executeFrom_withoutIds a, h, executor.executeFrom_withoutIds b]
  · rw [← a.map_spot_issues, h, b.map_spot_issues]

def Script.mislabeled : Script where
  order := (OperationOrder.empty.insert "op_1").1
  operations := Table.ofList [("op_1", .conditional {
    id := "op_2"
    conditions := Table.ofList [
      ("cond_1", { left := some (.static (.bool true)), work := some "step_1" }),
      ("cond_2", { left := some (.internal "cond_3" Operand.conditionKey) })]
    order := ["cond_1", "cond_2"] })]
  steps := Table.ofList [("step_1", ⟨"step_2", .native, .native .null, none, [], 0⟩)]

def Executor.naming : Executor Unit where
  defaultRunner := some fun step _ => (.ok (.string step.id), ())

/-- With the identifiers restored or without, the runner is asked for the same step, and the run ends
with the same error. The one issue is told in different words, but of the same place. -/
theorem Script.mislabeled_executeFrom_and_issues_eq :
    let script := Script.mislabeled
    let run := Executor.naming.executeFrom script ∅ ()
    script.withoutIds = script.restoreIds.withoutIds ∧ script ≠ script.restoreIds ∧
      run = Executor.naming.executeFrom script.restoreIds ∅ () ∧
      run.1 = .error (.unresolvedReference "cond_3") ∧
      run.2.results.get? "step_1" = some (.string "step_1") ∧
      script.issues ≠ script.restoreIds.issues ∧
      script.issues.map Issue.spot = script.restoreIds.issues.map Issue.spot := by
  intro script run
  have hsame : script.withoutIds = script.restoreIds.withoutIds :=
    script.withoutIds_restoreIds.symm
  obtain ⟨hrun, hissues⟩ := Script.executeFrom_and_issues_eq hsame Executor.naming ∅ ()
  exact ⟨hsame, by decide, hrun, rfl, rfl, by decide, hissues⟩

end Workflow
