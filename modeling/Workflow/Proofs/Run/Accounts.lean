import Workflow.Proofs.Run.Alike
import Workflow.Proofs.Run.Summary
import Workflow.Proofs.Validation.Breaches

/-!
The steps of a run in its records. A record is made after the work of its condition is done, and
after the records of the operations below. Main statement: where conditions that others read have no
work, the records of a successful run name the steps that were called, in the order of the calls.
-/

set_option autoImplicit false

namespace Workflow

variable {σ α β : Type}

/-- The conditions that others of the table read have no work. -/
def Conditional.ReadsNoWork (operation : Conditional) : Prop :=
  ∀ row ∈ operation.conditions.values, ∀ owner ∈ row.owners,
    WorkKind.of? owner = some .condition →
    ∀ read ∈ operation.conditions.get? owner, read.work = none

def Script.ReadsNoWork (script : Script) : Prop :=
  ∀ entry ∈ script.conditionals, entry.2.ReadsNoWork

instance (script : Script) : Decidable script.ReadsNoWork := by
  unfold Script.ReadsNoWork Conditional.ReadsNoWork
  infer_instance

namespace TraceRecord

def stepOf (work : Option Uid) : List Uid :=
  work.toList.filter fun work => !WorkKind.operation.opens work

def steps (records : List TraceRecord) : List Uid :=
  (records.filterMap TraceRecord.work).filter fun work => !WorkKind.operation.opens work

theorem steps_append (records : List TraceRecord) (record : TraceRecord) :
    steps (records ++ [record]) = steps records ++ stepOf record.work := by
  cases hwork : record.work <;> simp [steps, stepOf, hwork]

end TraceRecord

open TraceRecord (stepOf)

/-- The steps that were called are those that the records name, and then those that are `owed`. -/
def RunState.Owes (owed : List Uid) (state : RunState σ) : Prop :=
  (state.journal.filterMap Event.called?).map Step.id = TraceRecord.steps state.records ++ owed

namespace RunState.Owes

variable {owed : List Uid} {state : RunState σ}

theorem noted {event : Event} (h : state.Owes owed) (hevent : event.called? = none) :
    (state.noted event).Owes owed := by
  simpa [RunState.Owes, RunState.noted, hevent] using h

theorem recorded {record : TraceRecord} (h : state.Owes (stepOf record.work)) :
    (state.recorded record).Owes [] := by
  simpa [RunState.Owes, RunState.recorded, TraceRecord.steps_append] using h

theorem called {slot : RunnerSlot} {step : Step} {answer : Except String Json} {runners : σ}
    (h : state.Owes []) : (state.called slot step answer runners).Owes [step.id] := by
  simpa [RunState.Owes, RunState.called, RunState.noted, Event.called?] using h

end RunState.Owes

namespace Run

/-- If it succeeds from where `before` is owed, the action leaves `after` owed. -/
def Carries (action : Run σ α) (before : List Uid) (after : α → List Uid) : Prop :=
  ∀ state a next, state.Owes before → action.outcome state = (.ok a, next) → next.Owes (after a)

abbrev Balanced (action : Run σ α) : Prop := action.Carries [] fun _ => []

namespace Carries

variable {action : Run σ α} {f : α → Run σ β} {before : List Uid} {middle : α → List Uid}
  {after : β → List Uid}

theorem pure {a : α} (h : middle a = before) :
    (Pure.pure a : Run σ α).Carries before middle := by
  intro state b next howes hend
  cases hend
  rwa [h]

theorem throw (error : RunError) :
    (MonadExcept.throw error : Run σ α).Carries before middle :=
  fun _ _ _ _ hend => nomatch hend

theorem bind (h : action.Carries before middle) (hf : ∀ a, (f a).Carries (middle a) after) :
    (action >>= f).Carries before after := by
  intro state b next howes hend
  obtain ⟨a, between, hfirst, hsecond⟩ := exists_of_outcome_bind hend
  exact hf a between b next (h state a between howes hfirst) hsecond

theorem note {event : Event} (h : event.called? = none) :
    (Run.note event : Run σ Unit).Carries before fun _ => before := by
  intro state _ next howes hend
  cases hend
  exact howes.noted h

theorem store (uid : Uid) (value : Json) :
    (Run.store uid value : Run σ Unit).Carries before fun _ => before := by
  intro state _ next howes hend
  cases hend
  exact howes.noted rfl

theorem record (r : TraceRecord) :
    (Run.record r : Run σ Unit).Carries (stepOf r.work) fun _ => [] := by
  intro state _ next howes hend
  cases hend
  exact howes.recorded

theorem entering {frame : Frame} {path : List Uid} {body : List Uid → Run σ α}
    (h : (body (frame.uid :: path)).Carries before middle) :
    (Run.entering frame path body).Carries before middle := by
  unfold Run.entering
  split
  · exact throw _
  · exact bind (note rfl) fun _ => bind h fun _ => bind (note rfl) fun _ => pure rfl

end Carries

theorem balanced_parametric :
    Parametric fun _ (action : Run σ _) (_ : Run σ _) => action.Balanced where
  pure _ := .pure rfl
  throw := .throw
  bind h hf := .bind h hf

end Run

namespace Engine

open Run (balanced_parametric)

variable {engine : Engine σ} {below : Below σ} {operation : Conditional}

theorem balanced_leaf (operand : Operand) : (leaf operand : Run σ Trace).Balanced := by
  intro state a next howes hend
  rw [outcome_leaf] at hend
  cases operand with
  | static value =>
    cases hend
    exact howes
  | internal owner key =>
    cases hrecord : state.results.get? owner with
    | none => simp [hrecord] at hend
    | some record =>
      cases hfield : record.lookup? key with
      | none => simp [hrecord, hfield] at hend
      | some value =>
        simp only [hrecord, hfield, Prod.mk.injEq] at hend
        obtain ⟨-, rfl⟩ := hend
        exact howes.noted rfl

theorem carries_runStep (uid : Uid) (step : Step) :
    (engine.runStep uid step).Carries [] fun _ => [uid] := by
  intro state a next howes hend
  rw [outcome_runStep] at hend
  cases hrunner : engine.executor.runnerFor? step.kind with
  | none => simp [hrunner] at hend
  | some found =>
    obtain ⟨slot, runner⟩ := found
    rcases hanswer : runner { step with id := uid } state.runners with ⟨cause | output, runners⟩
    · simp [hrunner, hanswer] at hend
    · simp only [hrunner, hanswer, Prod.mk.injEq] at hend
      obtain ⟨-, rfl⟩ := hend
      exact howes.called.noted rfl

structure BalancedBelow (below : Below σ) : Prop where
  operation (uid : Uid) (depth : Nat) (path : List Uid) :
    (below.operation uid depth path).Balanced
  condition {operation : Conditional} (hreads : operation.ReadsNoWork) (condition : Uid)
    (depth : Nat) (path : List Uid) : (below.condition operation condition depth path).Balanced

theorem carries_runWork (hbelow : BalancedBelow below) (work referencedBy : Uid) (depth : Nat)
    (path : List Uid) :
    (engine.runWork below work referencedBy depth path).Carries [] fun _ => stepOf (some work) := by
  unfold runWork
  split
  case isTrue hkind =>
    have hnone : stepOf (some work) = [] := by simp [stepOf, WorkKind.opens_iff.mpr hkind]
    rw [hnone]
    split
    · exact hbelow.operation work depth path
    · exact .throw _
  case isFalse hkind =>
    have hopens : WorkKind.operation.opens work = false := by
      rwa [← WorkKind.opens_iff, Bool.not_eq_true] at hkind
    have hstep : stepOf (some work) = [work] := by simp [stepOf, hopens]
    rw [hstep]
    split
    · exact carries_runStep _ _
    · exact .throw _

theorem carries_runAction (hbelow : BalancedBelow below) (row : ConditionRow) (condition : Uid)
    (depth : Nat) (path : List Uid) :
    (engine.runAction below row condition depth path).Carries [] stepOf := by
  unfold runAction
  split
  case h_1 => exact .pure rfl
  case h_2 work _ =>
    exact .bind (carries_runWork hbelow work condition depth path) fun _ => .pure rfl

theorem balanced_evaluateRow (hbelow : BalancedBelow below) (hreads : operation.ReadsNoWork)
    {condition : Uid} {row : ConditionRow} (hrow : operation.conditions.get? condition = some row)
    (depth : Nat) (path : List Uid) :
    (engine.evaluateRow below operation row depth path).Balanced := by
  refine balanced_parametric.evaluateRow engine below operation fun operand hmem => ?_
  refine balanced_parametric.operand engine below rfl (balanced_leaf operand)
    fun owner read howner hkind hread => ⟨hbelow.condition hreads owner _ path, ?_⟩
  have hvalue : row ∈ operation.conditions.values :=
    List.mem_map_of_mem (Table.get?_eq_some_iff.mp hrow)
  have hmem' : owner ∈ row.owners := List.mem_filterMap.mpr ⟨operand, hmem, howner⟩
  have hnone : read.work = none := hreads row hvalue owner hmem' hkind read hread
  exact balanced_parametric.runAction engine below owner fun work hwork =>
    nomatch hnone.symm.trans hwork

theorem balanced_checkDepth (uid : Uid) (depth : Nat) :
    (engine.checkDepth uid depth).Balanced := by
  unfold checkDepth
  split
  · exact .throw _
  · exact .pure rfl

theorem balanced_findCondition (condition : Uid) (depth : Nat) :
    (engine.findCondition operation condition depth).Balanced := by
  refine .bind (.note rfl) fun _ => .bind (balanced_checkDepth condition depth) fun _ => ?_
  split
  · exact .pure rfl
  · exact .throw _

theorem balanced_findOperation (uid : Uid) (depth : Nat) :
    (engine.findOperation uid depth).Balanced := by
  refine .bind (.note rfl) fun _ => .bind (balanced_checkDepth uid depth) fun _ => ?_
  split
  · exact .pure rfl
  · exact .throw _
  · exact .throw _

theorem balanced_evaluate (hbelow : BalancedBelow below) (hreads : operation.ReadsNoWork)
    (condition : Uid) (depth : Nat) (path : List Uid) :
    (engine.evaluate below operation condition depth path).Balanced := by
  intro state trace next howes hend
  obtain ⟨row, found, hfind, hend⟩ := Run.exists_of_outcome_bind hend
  have hrow : operation.conditions.get? condition = some row := get?_of_findCondition hfind
  refine Run.Carries.bind (.entering (balanced_evaluateRow hbelow hreads hrow depth _))
    (fun _ => .bind (.store _ _) fun _ => .pure rfl) found trace next ?_ hend
  exact balanced_findCondition condition depth state row found howes hfind

theorem balanced_runConditions (hbelow : BalancedBelow below) (hreads : operation.ReadsNoWork)
    (uid : Uid) (depth : Nat) (path conditions matched : List Uid) :
    (engine.runConditions below uid operation depth path conditions matched).Balanced := by
  induction conditions generalizing matched with
  | nil => exact .pure rfl
  | cons condition rest ih =>
    unfold runConditions
    split
    case h_1 => exact .throw _
    case h_2 row hrow =>
      refine .bind (hbelow.condition hreads condition depth path) fun trace => ?_
      split
      case isTrue =>
        refine .bind (carries_runAction hbelow row condition (depth + 1) path) fun work => ?_
        refine .bind (.record ⟨uid, condition, trace, true, work⟩) fun _ => ?_
        split
        · exact .pure rfl
        · exact ih _
      case isFalse => exact .bind (.record ⟨uid, condition, trace, false, none⟩) fun _ => ih _

theorem balanced_runOperation (hbelow : BalancedBelow below)
    (hreads : engine.script.ReadsNoWork) (uid : Uid) (depth : Nat) (path : List Uid) :
    (engine.runOperation below uid depth path).Balanced := by
  intro state _ next howes hend
  obtain ⟨operation, found, hfind, hend⟩ := Run.exists_of_outcome_bind hend
  have hreads' : operation.ReadsNoWork :=
    hreads (uid, operation) (Script.mem_conditionals_iff.mpr (get?_of_findOperation hfind))
  refine Run.Carries.bind
    (.entering (balanced_runConditions hbelow hreads' uid depth _ operation.order []))
    (fun _ => .store uid _) found () next ?_ hend
  exact balanced_findOperation uid depth state operation found howes hfind

theorem balancedBelow_calls (hreads : engine.script.ReadsNoWork) (room : Nat) :
    BalancedBelow (engine.calls room) := by
  induction room with
  | zero =>
    exact ⟨fun uid depth _ => .bind (balanced_findOperation uid depth) fun _ => .throw _,
      fun _ condition depth _ => .bind (balanced_findCondition condition depth) fun _ => .throw _⟩
  | succ room ih =>
    exact ⟨balanced_runOperation ih hreads, fun hreads => balanced_evaluate ih hreads⟩

theorem balanced_runAll (engine : Engine σ) (hreads : engine.script.ReadsNoWork)
    (uids : List Uid) : (engine.runAll uids).Balanced := by
  induction uids with
  | nil => exact .pure rfl
  | cons uid uids ih =>
    refine .bind ?_ fun _ => ih
    unfold runListed
    split
    · exact (balancedBelow_calls hreads _).operation uid 0 []
    · exact .throw _

end Engine

/-- If no condition that another one of its table reads has work, a successful run has called the
runners for the steps that its records name, one call for each, in the order of the records. -/
theorem Executor.called_eq_recorded (executor : Executor σ) {script : Script}
    (hreads : script.ReadsNoWork) (results : Table Json) (runners : σ) :
    let run := executor.executeFrom script results runners
    run.1 = .ok () →
      (run.2.journal.filterMap Event.called?).map Step.id =
        (run.2.records.filterMap TraceRecord.work).filter
          fun work => !WorkKind.operation.opens work := by
  intro run hok
  have hend : run = (.ok (), run.2) := Prod.ext hok rfl
  have hstart : RunState.Owes (σ := σ) [] { results, runners } := rfl
  have hbalanced := Engine.balanced_runAll ⟨executor, script⟩ hreads script.order.uids
  have howes : run.2.Owes [] := hbalanced _ () _ hstart hend
  exact howes.trans (List.append_nil _)

def Script.ledger : Script where
  order := (OperationOrder.empty.insert "op_1").1
  operations := Table.ofList [
    ("op_1", .conditional {
      conditions := Table.ofList [
        ("cond_1", {
          left := some (.internal "cond_2" Operand.conditionKey), work := some "op_2" }),
        ("cond_2", { left := some (.static (.bool true)) }),
        ("cond_3", { work := some "step_3" })]
      order := ["cond_1", "cond_3"] }),
    ("op_2", .conditional {
      conditions := Table.ofList [
        ("cond_4", { work := some "step_1" }),
        ("cond_5", { work := some "step_2" })]
      order := ["cond_4", "cond_5"] })]
  steps := Table.ofList [
    ("step_1", ⟨"step_1", .native, .native .null, none, [], 0⟩),
    ("step_2", ⟨"step_2", .native, .native .null, none, [], 0⟩),
    ("step_3", ⟨"step_3", .native, .native .null, none, [], 0⟩)]

theorem Script.ledger_called_eq_recorded :
    let run := fun policy =>
      Executor.executeFrom { defaultRunner := some fun _ _ => (.ok .null, ()), policy }
        Script.ledger ∅ ()
    let called := fun policy => ((run policy).2.journal.filterMap Event.called?).map Step.id
    let recorded := fun policy => (run policy).2.records.filterMap TraceRecord.work
    let steps := fun uids : List Uid => uids.filter fun work => !WorkKind.operation.opens work
    Script.ledger.ReadsNoWork ∧ (run .all).1 = .ok () ∧ (run .firstMatch).1 = .ok () ∧
      recorded .all = ["step_1", "step_2", "op_2", "step_3"] ∧
      recorded .firstMatch = ["step_1", "op_2"] ∧
      called .all = steps (recorded .all) ∧ called .firstMatch = steps (recorded .firstMatch) := by
  intro run called recorded steps
  have hreads : Script.ledger.ReadsNoWork := by decide +kernel
  exact ⟨hreads, rfl, rfl, rfl, rfl, Executor.called_eq_recorded _ hreads ∅ () rfl,
    Executor.called_eq_recorded _ hreads ∅ () rfl⟩

end Workflow
