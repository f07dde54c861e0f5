import Mathlib.Data.List.Dedup
import Mathlib.Data.List.Perm.Subperm
import Mathlib.Logic.Relation
import Workflow.Proofs.Run.Explained
import Workflow.Proofs.Run.Outcome

/-!
Runs as sequences of moves. A move is one thing that a run does, together with what the engine has
made sure of before it; a failure is what ends a run early, together with its cause. Main statement:
every run of a script goes by moves from no open frame back to no open frame, or to a failure.
-/

set_option autoImplicit false

namespace Workflow

def Frame.path (frames : List Frame) : List Uid := frames.map Frame.uid

namespace Script

structure HasRow (script : Script) (uid : Uid) (operation : Conditional) (condition : Uid)
    (row : ConditionRow) : Prop where
  get_operation : script.operations.get? uid = some (.conditional operation)
  get_row : operation.conditions.get? condition = some row

theorem HasRow.operation_eq {script : Script} {uid condition : Uid} {operation found : Conditional}
    {row : ConditionRow} (h : script.HasRow uid operation condition row)
    (hfound : script.operations.get? uid = some (.conditional found)) : operation = found := by
  cases h.get_operation.symm.trans hfound
  rfl

theorem HasRow.row_eq {script : Script} {uid condition : Uid} {operation found : Conditional}
    {row other : ConditionRow} (h : script.HasRow uid operation condition row)
    (hfound : script.HasRow uid found condition other) : row = other := by
  cases h.operation_eq hfound.get_operation
  cases h.get_row.symm.trans hfound.get_row
  rfl

inductive Calls (script : Script) : List Frame → Frame → Prop
  | listed {uid : Uid} : uid ∈ script.order.uids → Calls script [] (.operation uid)
  | condition {frames : List Frame} {uid condition : Uid} {operation : Conditional}
      {row : ConditionRow} :
      script.HasRow uid operation condition row → condition ∈ operation.order →
      Calls script (.operation uid :: frames) (.condition condition)
  | operand {frames : List Frame} {uid reader condition : Uid} {operation : Conditional}
      {row nested : ConditionRow} :
      .operation uid ∈ frames → script.HasRow uid operation reader row →
      .internal condition Operand.conditionKey ∈ row.operands →
      script.HasRow uid operation condition nested → WorkKind.of? condition = some .condition →
      Calls script (.condition reader :: frames) (.condition condition)
  | work {frames : List Frame} {uid condition work : Uid} {operation : Conditional}
      {row : ConditionRow} :
      script.HasRow uid operation condition row → condition ∈ operation.order →
      row.work = some work → script.operations.contains work →
      WorkKind.of? work = some .operation →
      Calls script (.operation uid :: frames) (.operation work)
  | operandWork {frames : List Frame} {uid reader condition work : Uid} {operation : Conditional}
      {row nested : ConditionRow} :
      .operation uid ∈ frames → script.HasRow uid operation reader row →
      .internal condition Operand.conditionKey ∈ row.operands →
      script.HasRow uid operation condition nested → nested.work = some work →
      script.operations.contains work → WorkKind.of? work = some .operation →
      Calls script (.condition reader :: frames) (.operation work)

/-- Why work may run: a condition of an operation that is being run has it as its work, and the
results say that this condition holds. -/
def Permits (script : Script) (frames : List Frame) (results : Table Json) (work : Uid) : Prop :=
  ∃ uid operation condition row, .operation uid ∈ frames ∧
    script.HasRow uid operation condition row ∧ row.work = some work ∧
    results.get? condition = some (conditionResult true)

def Reads (script : Script) (frames : List Frame) (operand : Operand) : Prop :=
  ∃ uid operation condition row, .operation uid ∈ frames ∧ .condition condition ∈ frames ∧
    script.HasRow uid operation condition row ∧ operand ∈ row.operands

end Script

namespace Script

variable {script : Script} {frames : List Frame} {room : Nat}

/-- How many identifiers can be entered, each counted once. -/
def keyCount (script : Script) : Nat := script.enterable.dedup.length

structure Stacks (script : Script) (frames : List Frame) : Prop where
  nodup : (Frame.path frames).Nodup
  enterable : ∀ uid ∈ Frame.path frames, uid ∈ script.enterable

/-- Frames that leave `room` for more: together with the room they are no fewer than the identifiers
that can be entered. -/
structure Fits (script : Script) (room : Nat) (frames : List Frame) : Prop
    extends script.Stacks frames where
  keyCount_le : script.keyCount ≤ frames.length + room

theorem mem_enterable_of_operation {uid : Uid} {operation : Operation}
    (h : script.operations.get? uid = some operation) : uid ∈ script.enterable := by
  refine List.mem_append_left _ (Table.mem_keys_iff.mpr ?_)
  simp [Table.contains, h]

theorem HasRow.mem_enterable {uid condition : Uid} {operation : Conditional} {row : ConditionRow}
    (h : script.HasRow uid operation condition row) : condition ∈ script.enterable := by
  refine List.mem_append_right _
    (List.mem_flatMap.mpr ⟨(uid, operation), mem_conditionals_iff.mpr h.get_operation, ?_⟩)
  exact Table.mem_keys_iff.mpr (by simp [Table.contains, h.get_row])

theorem stacks_nil (script : Script) : script.Stacks [] := ⟨.nil, by simp [Frame.path]⟩

theorem Stacks.cons {frame : Frame} (h : script.Stacks frames)
    (hnew : frame.uid ∉ Frame.path frames) (hmem : frame.uid ∈ script.enterable) :
    script.Stacks (frame :: frames) where
  nodup := List.nodup_cons.mpr ⟨hnew, h.nodup⟩
  enterable uid huid := by
    rcases List.mem_cons.mp huid with rfl | huid
    · exact hmem
    · exact h.enterable uid huid

theorem Stacks.subperm (h : script.Stacks frames) :
    List.Subperm (Frame.path frames) script.enterable.dedup :=
  h.nodup.subperm fun uid huid => List.mem_dedup.mpr (h.enterable uid huid)

theorem fits_nil (script : Script) : script.Fits script.enterable.length [] where
  toStacks := script.stacks_nil
  keyCount_le := by
    have := script.enterable.dedup_sublist.length_le
    simpa [keyCount] using this

theorem Fits.cons {frame : Frame} (h : script.Fits (room + 1) frames)
    (hnew : frame.uid ∉ Frame.path frames) (hmem : frame.uid ∈ script.enterable) :
    script.Fits room (frame :: frames) where
  toStacks := h.toStacks.cons hnew hmem
  keyCount_le := by
    have := h.keyCount_le
    simp only [List.length_cons]
    omega

theorem Fits.mem_path {uid : Uid} (h : script.Fits 0 frames) (hmem : uid ∈ script.enterable) :
    uid ∈ Frame.path frames := by
  have hlen : script.enterable.dedup.length ≤ (Frame.path frames).length := by
    simpa [Frame.path, keyCount] using h.keyCount_le
  exact (h.subperm.perm_of_length_le hlen).mem_iff.mpr (List.mem_dedup.mpr hmem)

end Script

/-- The open frames of a run, innermost first, and its state. -/
structure Moment (σ : Type) where
  frames : List Frame
  state : RunState σ

namespace Engine

variable {σ : Type}

inductive Move (engine : Engine σ) : Moment σ → Moment σ → Prop
  | visitOperation {frames : List Frame} {state : RunState σ} {uid : Uid} {depth : Nat} :
      engine.script.Calls frames (.operation uid) → engine.script.operations.contains uid →
      depth ≤ frames.length →
      Move engine ⟨frames, state⟩ ⟨frames, state.noted (.visit (.operation uid) depth)⟩
  | visitCondition {frames : List Frame} {state : RunState σ} {condition : Uid} {depth : Nat} :
      engine.script.Calls frames (.condition condition) → depth < frames.length →
      Move engine ⟨frames, state⟩ ⟨frames, state.noted (.visit (.condition condition) depth)⟩
  | enterOperation {frames : List Frame} {state : RunState σ} {uid : Uid}
      {operation : Conditional} :
      engine.script.Calls frames (.operation uid) →
      engine.script.operations.get? uid = some (.conditional operation) →
      uid ∉ Frame.path frames →
      Move engine ⟨frames, state⟩
        ⟨.operation uid :: frames, state.noted (.enter (.operation uid))⟩
  | enterCondition {frames : List Frame} {state : RunState σ} {condition : Uid} :
      engine.script.Calls frames (.condition condition) → condition ∉ Frame.path frames →
      Move engine ⟨frames, state⟩
        ⟨.condition condition :: frames, state.noted (.enter (.condition condition))⟩
  | leave {frame : Frame} {frames : List Frame} {state : RunState σ} :
      Move engine ⟨frame :: frames, state⟩ ⟨frames, state.noted (.leave frame)⟩
  | read {frames : List Frame} {state : RunState σ} {owner : Uid} {key : String} {record : Json} :
      engine.script.Reads frames (.internal owner key) → state.results.get? owner = some record →
      Move engine ⟨frames, state⟩ ⟨frames, state.noted (.read owner record)⟩
  | call {frames : List Frame} {state : RunState σ} {work : Uid} {step : Step} {slot : RunnerSlot}
      {runner : StepRunner σ} {output : Json} {runners : σ} :
      engine.script.Permits frames state.results work →
      engine.script.steps.get? work = some step →
      engine.executor.runnerFor? step.kind = some (slot, runner) →
      runner { step with id := work } state.runners = (.ok output, runners) →
      Move engine ⟨frames, state⟩
        ⟨frames, (state.called slot { step with id := work } (.ok output) runners).stored
          work output⟩
  | storeCondition {frames : List Frame} {state : RunState σ} {uid condition : Uid}
      {operation : Conditional} {row : ConditionRow} {holds : Bool} :
      .operation uid ∈ frames → engine.script.HasRow uid operation condition row →
      engine.script.Calls frames (.condition condition) →
      Move engine ⟨frames, state⟩ ⟨frames, state.stored condition (conditionResult holds)⟩
  | storeOperation {frames : List Frame} {state : RunState σ} {uid : Uid}
      {operation : Conditional} {matched : List Uid} :
      engine.script.operations.get? uid = some (.conditional operation) →
      engine.script.Calls frames (.operation uid) →
      Move engine ⟨frames, state⟩ ⟨frames, state.stored uid (operationResult matched)⟩
  | record {frames : List Frame} {state : RunState σ} {uid condition : Uid}
      {operation : Conditional} {row : ConditionRow} {trace : Trace} :
      .operation uid ∈ frames → engine.script.HasRow uid operation condition row →
      condition ∈ operation.order → trace.Explained →
      Move engine ⟨frames, state⟩ ⟨frames, state.recorded
        ⟨uid, condition, trace, trace.holds, if trace.holds then row.work else none⟩⟩

inductive Fails (engine : Engine σ) : Moment σ → RunError → RunState σ → Prop
  | notListed {state : RunState σ} {uid : Uid} :
      uid ∈ engine.script.order.uids → ¬ engine.script.operations.contains uid →
      Fails engine ⟨[], state⟩ (.missingOperation uid) state
  | unsupported {frames : List Frame} {state : RunState σ} {uid : Uid} {operation : Unsupported} :
      engine.script.Calls frames (.operation uid) →
      engine.script.operations.get? uid = some (.unsupported operation) →
      Fails engine ⟨frames, state⟩ (.unsupportedOperation uid operation.type) state
  | missingCondition {frames : List Frame} {state : RunState σ} {uid condition : Uid}
      {operation : Conditional} :
      engine.script.operations.get? uid = some (.conditional operation) →
      condition ∈ operation.order → operation.conditions.get? condition = none →
      Fails engine ⟨.operation uid :: frames, state⟩ (.missingCondition uid condition) state
  | missingWork {frames : List Frame} {state : RunState σ} {uid condition work : Uid}
      {operation : Conditional} {row : ConditionRow} :
      engine.script.HasRow uid operation condition row → row.work = some work →
      (if WorkKind.of? work = some .operation then ¬ engine.script.operations.contains work
        else engine.script.steps.get? work = none) →
      Fails engine ⟨frames, state⟩ (.missingWork work condition) state
  | cyclic {frames : List Frame} {state : RunState σ} {frame : Frame} :
      engine.script.Calls frames frame → frame.uid ∈ Frame.path frames →
      Fails engine ⟨frames, state⟩ (.cyclicWork frame.uid) state
  | tooDeep {frames : List Frame} {state : RunState σ} {frame : Frame} {depth : Nat} :
      engine.script.Calls frames frame → engine.executor.maxDepth < depth →
      depth ≤ frames.length →
      Fails engine ⟨frames, state⟩ (.depthExceeded frame.uid engine.executor.maxDepth) state
  | noResult {frames : List Frame} {state : RunState σ} {owner : Uid} {key : String} :
      engine.script.Reads frames (.internal owner key) → state.results.get? owner = none →
      Fails engine ⟨frames, state⟩ (.unresolvedReference owner) state
  | noField {frames : List Frame} {state : RunState σ} {owner : Uid} {key : String}
      {record : Json} :
      engine.script.Reads frames (.internal owner key) → state.results.get? owner = some record →
      record.lookup? key = none →
      Fails engine ⟨frames, state⟩ (.unresolvedField owner key) state
  /-- A condition of the same operation has no field but its outcome. -/
  | noConditionField {frames : List Frame} {state : RunState σ} {owner : Uid} {key : String} :
      engine.script.Reads frames (.internal owner key) → WorkKind.of? owner = some .condition →
      key ≠ Operand.conditionKey →
      Fails engine ⟨frames, state⟩ (.unresolvedField owner key) state
  | noRunner {frames : List Frame} {state : RunState σ} {work : Uid} {step : Step} :
      engine.script.Permits frames state.results work →
      engine.script.steps.get? work = some step →
      engine.executor.runnerFor? step.kind = none →
      Fails engine ⟨frames, state⟩ (.noRunner step.kind) state
  | call {frames : List Frame} {state : RunState σ} {work : Uid} {step : Step} {slot : RunnerSlot}
      {runner : StepRunner σ} {cause : String} {runners : σ} :
      engine.script.Permits frames state.results work →
      engine.script.steps.get? work = some step →
      engine.executor.runnerFor? step.kind = some (slot, runner) →
      runner { step with id := work } state.runners = (.error cause, runners) →
      Fails engine ⟨frames, state⟩ (.step work cause)
        (state.called slot { step with id := work } (.error cause) runners)

/-- What a run may come to by moves. -/
def Reaches (engine : Engine σ) : Moment σ → Moment σ → Prop :=
  Relation.ReflTransGen engine.Move

/-- Started among `frames` in a state with `P`, the action goes by moves back to the same frames,
with a value and a state that have `Q`, or to a failure. -/
def Goes (engine : Engine σ) {α : Type} (frames : List Frame) (P : RunState σ → Prop)
    (action : Run σ α) (Q : α → RunState σ → Prop) : Prop :=
  ∀ state, P state →
    (∃ a after, action.outcome state = (.ok a, after) ∧
      engine.Reaches ⟨frames, state⟩ ⟨frames, after⟩ ∧ Q a after) ∨
    (∃ error moment after, action.outcome state = (.error error, after) ∧
      engine.Reaches ⟨frames, state⟩ moment ∧ engine.Fails moment error after)

end Engine

end Workflow
