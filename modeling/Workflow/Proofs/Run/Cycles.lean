import Mathlib.Data.List.Chain
import Workflow.Proofs.Run.Course

set_option autoImplicit false

namespace Workflow

/-- How the identifiers of a script refer to each other, whatever happens in a run. -/
inductive Script.Refers (script : Script) : Uid → Uid → Prop
  | condition {uid condition : Uid} {operation : Conditional} {row : ConditionRow} :
      script.HasRow uid operation condition row → Refers script uid condition
  | operand {uid reader condition : Uid} {operation : Conditional} {row nested : ConditionRow} :
      script.HasRow uid operation reader row → condition ∈ row.owners →
      script.HasRow uid operation condition nested → Refers script reader condition
  | work {uid condition work : Uid} {operation : Conditional} {row : ConditionRow} :
      script.HasRow uid operation condition row → row.work = some work →
      script.operations.contains work → Refers script uid work
  /-- A condition refers to the operations that are run by the conditions that it reads. -/
  | operandWork {uid reader condition work : Uid} {operation : Conditional}
      {row nested : ConditionRow} :
      script.HasRow uid operation reader row → condition ∈ row.owners →
      script.HasRow uid operation condition nested → nested.work = some work →
      script.operations.contains work → Refers script reader work

/-- The identifier refers to itself, at once or through others. -/
def Script.OnCycle (script : Script) (uid : Uid) : Prop := Relation.TransGen script.Refers uid uid

namespace Script

variable {script : Script} {frames : List Frame} {frame called : Frame}

theorem Calls.refers (h : script.Calls (frame :: frames) called) :
    script.Refers frame.uid called.uid := by
  cases h with
  | condition hrow _ => exact .condition hrow
  | operand _ hrow hmem hnested => exact .operand hrow (ConditionRow.mem_owners hmem) hnested
  | work hrow _ hwork hcontains => exact .work hrow hwork hcontains
  | operandWork _ hrow hmem hnested hwork hcontains =>
    exact .operandWork hrow (ConditionRow.mem_owners hmem) hnested hwork hcontains

/-- Every frame refers to the one that was entered next. -/
def Linked (script : Script) (frames : List Frame) : Prop :=
  frames.IsChain fun inner outer => script.Refers outer.uid inner.uid

theorem Linked.leads (h : script.Linked (frame :: frames)) {uid : Uid}
    (hmem : uid ∈ Frame.path (frame :: frames)) :
    Relation.ReflTransGen script.Refers uid frame.uid := by
  induction frames generalizing frame with
  | nil =>
    obtain rfl : uid = frame.uid := by simpa [Frame.path] using hmem
    exact .refl
  | cons outer frames ih =>
    obtain ⟨hrefers, hrest⟩ := List.isChain_cons_cons.mp h
    rcases List.mem_cons.mp hmem with rfl | hmem
    · exact .refl
    · exact (ih hrest hmem).tail hrefers

theorem Linked.cons (h : script.Linked frames) (hcalls : script.Calls frames called) :
    script.Linked (called :: frames) := by
  cases frames with
  | nil => exact List.isChain_singleton _
  | cons frame frames => exact List.isChain_cons_cons.mpr ⟨hcalls.refers, h⟩

theorem Linked.onCycle (h : script.Linked frames) (hcalls : script.Calls frames called)
    (hopen : called.uid ∈ Frame.path frames) : script.OnCycle called.uid := by
  cases frames with
  | nil => simp [Frame.path] at hopen
  | cons frame frames => exact .tail' (h.leads hopen) hcalls.refers

end Script

namespace Engine

variable {σ : Type} {engine : Engine σ} {moment next : Moment σ}

theorem Move.linked (hmove : engine.Move moment next) (h : engine.script.Linked moment.frames) :
    engine.script.Linked next.frames := by
  cases hmove with
  | enterOperation hcalls => exact h.cons hcalls
  | enterCondition hcalls => exact h.cons hcalls
  | leave => exact List.IsChain.tail h
  | visitOperation | visitCondition | read | call | storeCondition | storeOperation | record =>
    exact h

end Engine

/-- A run that ends because something was entered before it had ended tells a cycle of the script.
So a script without cycles never ends that way, however often a run comes back to something that has
ended. -/
theorem Executor.cyclicWork_onCycle {σ : Type} (executor : Executor σ) (script : Script)
    (results : Table Json) (runners : σ) :
    let run := executor.executeFrom script results runners
    (∀ uid, run.1 = .error (.cyclicWork uid) → script.OnCycle uid) ∧
      ((∀ uid, ¬ script.OnCycle uid) → ∀ uid, run.1 ≠ .error (.cyclicWork uid)) := by
  intro run
  have hcycle : ∀ uid, run.1 = .error (.cyclicWork uid) → script.OnCycle uid := by
    intro uid herror
    obtain ⟨moment, hlinked, hfail⟩ := executor.exists_fails script results runners
      (P := fun moment => script.Linked moment.frames) .nil (fun _ _ hmove h => hmove.linked h)
      herror
    cases hfail with
    | cyclic hcalls hopen => exact hlinked.onCycle hcalls hopen
  exact ⟨hcycle, fun hacyclic uid herror => hacyclic uid (hcycle uid herror)⟩

/-- Operations stand before their conditions, and conditions before all that they read and run. -/
def Script.Ascends (script : Script) (rank : Uid → Nat) : Prop :=
  ∀ entry ∈ script.conditionals, ∀ found ∈ entry.2.conditions.entries, rank entry.1 < rank found.1 ∧
    ∀ uid ∈ found.2.owners ++ found.2.work.toList, rank found.1 < rank uid

instance (script : Script) (rank : Uid → Nat) : Decidable (script.Ascends rank) :=
  inferInstanceAs (Decidable (∀ entry ∈ script.conditionals, ∀ found ∈ entry.2.conditions.entries,
    rank entry.1 < rank found.1 ∧
      ∀ uid ∈ found.2.owners ++ found.2.work.toList, rank found.1 < rank uid))

theorem Script.Ascends.not_onCycle {script : Script} {rank : Uid → Nat} (h : script.Ascends rank)
    (uid : Uid) : ¬ script.OnCycle uid := by
  have hrow : ∀ {uid condition : Uid} {operation : Conditional} {row : ConditionRow},
      script.HasRow uid operation condition row → rank uid < rank condition ∧
        ∀ uid ∈ row.owners ++ row.work.toList, rank condition < rank uid :=
    fun hrow => h _ (mem_conditionals_iff.mpr hrow.get_operation) _
      (Table.get?_eq_some_iff.mp hrow.get_row)
  have hrefers : ∀ a b, script.Refers a b → rank a < rank b := by
    intro a b hab
    cases hab with
    | condition hfound => exact (hrow hfound).1
    | operand hfound hread _ => exact (hrow hfound).2 b (by simp [hread])
    | work hfound hwork _ =>
      exact Nat.lt_trans (hrow hfound).1 ((hrow hfound).2 b (by simp [hwork]))
    | operandWork hfound hread hnested hwork _ =>
      have hread := (hrow hfound).2 _ (List.mem_append_left _ hread)
      exact Nat.lt_trans hread ((hrow hnested).2 b (by simp [hwork]))
  intro hcycle
  have hless : ∀ a b, Relation.TransGen script.Refers a b → rank a < rank b := by
    intro a b hab
    induction hab with
    | single hlast => exact hrefers _ _ hlast
    | tail _ hlast ih => exact Nat.lt_trans ih (hrefers _ _ hlast)
  exact Nat.lt_irrefl _ (hless uid uid hcycle)

def Script.loop : Script where
  order := (OperationOrder.empty.insert "op_1").1
  operations := Table.ofList [("op_1", .conditional {
    conditions := Table.ofList [
      ("cond_1", { left := some (.internal "cond_2" Operand.conditionKey) }),
      ("cond_2", { left := some (.static (.bool true)), work := some "op_1" })]
    order := ["cond_1"] })]

def Script.twice : Script where
  order := (OperationOrder.empty.insert "op_1").1
  operations := Table.ofList [
    ("op_1", .conditional {
      conditions := Table.ofList [
        ("cond_1", {
          operator := some .and
          left := some (.internal "cond_2" Operand.conditionKey)
          right := some (.internal "cond_2" Operand.conditionKey) }),
        ("cond_2", { left := some (.static (.bool true)), work := some "op_2" })]
      order := ["cond_1"] }),
    ("op_2", .conditional {
      conditions := Table.ofList [("cond_3", { left := some (.static (.bool true)) })]
      order := ["cond_3"] })]

def Event.entered? : Event → Option Uid
  | .enter frame => some frame.uid
  | _ => none

/-- Coming back to what is open is told and lies on a cycle; coming back to what has ended is not
told, and there is no cycle. -/
theorem Script.loop_onCycle :
    (({} : Executor Unit).executeFrom Script.loop ∅ ()).1 = .error (.cyclicWork "op_1") ∧
      Script.loop.OnCycle "op_1" ∧ (∀ uid, ¬ Script.twice.OnCycle uid) ∧
      (({} : Executor Unit).executeFrom Script.twice ∅ ()).2.journal.filterMap Event.entered? =
        ["op_1", "cond_1", "cond_2", "op_2", "cond_3", "cond_2", "op_2", "cond_3"] ∧
      ∀ uid, (({} : Executor Unit).executeFrom Script.twice ∅ ()).1 ≠ .error (.cyclicWork uid) := by
  have hloop :
      (({} : Executor Unit).executeFrom Script.loop ∅ ()).1 = .error (.cyclicWork "op_1") := rfl
  have htwice : Script.twice.Ascends fun uid =>
      ["op_1", "cond_1", "cond_2", "op_2", "cond_3"].idxOf uid := by decide
  exact ⟨hloop, (({} : Executor Unit).cyclicWork_onCycle Script.loop ∅ ()).1 "op_1" hloop,
    htwice.not_onCycle, rfl,
    (({} : Executor Unit).cyclicWork_onCycle Script.twice ∅ ()).2 htwice.not_onCycle⟩

end Workflow
