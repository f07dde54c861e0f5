import Mathlib.Data.List.Perm.Subperm
import Workflow.Proofs.Authoring.Collecting
import Workflow.Proofs.Run.Alike
import Workflow.Proofs.Run.Moves

/-!
A condition runs as it is meant: the rows that its tree is flattened into, found again by their
identifiers, make the engine do what the tree says.
-/

set_option autoImplicit false

namespace Workflow

open Run (Matches)

theorem Trace.value_binary (operator : Operator) (left right : Trace) (outcome : Bool) :
    (Trace.binary operator left right outcome).value = .bool outcome := rfl

/-- What the engine must find of a tree: its rows in the operation and its steps in the script. -/
structure Expr.Placed {σ : Type} (engine : Engine σ) (operation : Conditional) (held : Step → Step)
    (e : Expr) : Prop where
  rows : ∀ entry ∈ e.rows, operation.conditions.get? entry.1 = some entry.2
  kinds : ∀ id ∈ e.ids, WorkKind.of? id = some .condition
  nodup : e.ids.Nodup
  outputs : ∀ reference ∈ e.outputs, operation.conditions.get? reference.owner = none
  actions : ∀ unit ∈ e.actions, ∃ step, unit = .step step ∧ WorkKind.of? step.id ≠ some .operation ∧
    engine.script.steps.get? step.id = some (held step)

namespace Engine

variable {σ : Type} {engine : Engine σ} {operation : Conditional} {held : Step → Step}
  {below : Below σ} {depth : Nat} {path : List Uid}

theorem look_matches (reference : OutputRef) :
    Matches (leaf reference.operand : Run σ Trace) reference.look
      fun trace value => trace.value = value := by
  intro s t hst
  have hresults : s.results = t.results := congrArg Sight.results hst
  have hseen : ∀ owner record, (s.noted (.read owner record)).sight = t.sight :=
    fun owner record => (s.sight_noted rfl).trans hst
  simp only [outcome_leaf, OutputRef.operand, OutputRef.look, Run.outcome_bind, Run.outcome_get,
    Operand.resolve, hresults]
  cases t.results.get? reference.owner with
  | none => exact .error hst
  | some record =>
    dsimp only
    cases record.lookup? reference.key with
    | none => exact .error (hseen _ _)
    | some value => exact .ok rfl (hseen _ _)

theorem runStep_matches (uid : Uid) (step : Step) :
    Matches (engine.runStep uid step) (engine.runStep uid step) fun _ _ => True := by
  intro s t hst
  have hrunners : s.runners = t.runners := congrArg Sight.runners hst
  rw [outcome_runStep, outcome_runStep, hrunners]
  cases engine.executor.runnerFor? step.kind with
  | none => exact .error hst
  | some found =>
    obtain ⟨slot, runner⟩ := found
    have hcalled : ∀ answer runners,
        (s.called slot { step with id := uid } answer runners).sight =
          (t.called slot { step with id := uid } answer runners).sight := by
      intro answer runners
      rw [s.sight_called, t.sight_called, hst]
    rcases hanswer : runner { step with id := uid } t.runners with ⟨cause | output, runners⟩
    · simp only [hanswer]
      exact .error (hcalled _ _)
    · simp only [hanswer]
      exact .ok trivial (by rw [RunState.sight_stored, RunState.sight_stored, hcalled])

theorem runAction_matches {operator : Option Operator} {left right : Expr}
    {action : Option WorkUnit} {condition : Uid}
    (haction : ∀ unit ∈ action, ∃ step, unit = .step step ∧
      WorkKind.of? step.id ≠ some .operation ∧
      engine.script.steps.get? step.id = some (held step)) :
    Matches (engine.runAction below (Expr.row operator left right action) condition depth path)
      (action.forM (engine.executor.perform held)) fun _ _ => True := by
  cases action with
  | none => exact .pure trivial
  | some unit =>
    obtain ⟨step, rfl, hkind, hstep⟩ := haction unit rfl
    have hrun : engine.runWork below step.id condition depth path =
        engine.runStep step.id (held step) := by
      simp [runWork, hkind, hstep]
    simp only [runAction, Expr.row, Option.map_some, WorkUnit.id, hrun]
    exact .before_pure (runStep_matches step.id (held step)) fun _ => trivial

variable {left right : Expr} {action : Option WorkUnit} {lefts rights : Run σ Json}

theorem judge_matches {operator : Operator}
    (hleft : Matches (engine.operandOrNull below operation left.operand? depth path) lefts
      fun trace value => trace.value = value)
    (hright : Matches (engine.operandOrNull below operation right.operand? depth path) rights
      fun trace value => trace.value = value) :
    Matches (engine.evaluateRow below operation (Expr.row (some operator) left right action) depth
      path) (operator.judge lefts rights) fun trace holds => trace.value = .bool holds := by
  refine .bind hleft fun trace value hvalue => ?_
  subst hvalue
  cases operator with
  | not => exact .pure rfl
  | and =>
    cases htruthy : trace.value.isTruthy with
    | false =>
      simp only [Operator.isUnary, Operator.isDecidedBy, htruthy]
      exact .pure rfl
    | true =>
      simp only [Operator.isUnary, Operator.isDecidedBy, htruthy]
      refine .bind hright fun trace' value' hvalue' => ?_
      subst hvalue'
      exact .pure (by simp [Trace.value_binary, Operator.apply, htruthy])
  | or =>
    cases htruthy : trace.value.isTruthy with
    | true =>
      simp only [Operator.isUnary, Operator.isDecidedBy, htruthy]
      exact .pure rfl
    | false =>
      simp only [Operator.isUnary, Operator.isDecidedBy, htruthy]
      refine .bind hright fun trace' value' hvalue' => ?_
      subst hvalue'
      exact .pure (by simp [Trace.value_binary, Operator.apply, htruthy])
  | _ =>
    refine .bind hright fun trace' value' hvalue' => ?_
    subst hvalue'
    exact .pure rfl

theorem evaluateRow_matches {operator : Option Operator}
    (hleft : Matches (engine.operandOrNull below operation left.operand? depth path) lefts
      fun trace value => trace.value = value)
    (hright : Matches (engine.operandOrNull below operation right.operand? depth path) rights
      fun trace value => trace.value = value) :
    Matches (engine.evaluateRow below operation (Expr.row operator left right action) depth path)
      (Expr.decision operator left.isAbsent lefts rights)
      fun trace holds => trace.value = .bool holds := by
  cases operator with
  | some operator => exact judge_matches hleft hright
  | none =>
    cases left with
    | absent => exact .pure rfl
    | literal | output | condition =>
      refine .bind hleft fun trace value hvalue => ?_
      subst hvalue
      exact .pure rfl

theorem evaluate_matches {operator : Option Operator} {id : Uid}
    (hrow : operation.conditions.get? id = some (Expr.row operator left right action))
    (hdepth : depth ≤ engine.executor.maxDepth) (hnew : id ∉ path)
    (hleft : Matches (engine.operandOrNull below operation left.operand? depth (id :: path))
      lefts fun trace value => trace.value = value)
    (hright : Matches (engine.operandOrNull below operation right.operand? depth (id :: path))
      rights fun trace value => trace.value = value) :
    Matches (engine.evaluate below operation id depth path)
      (settle id (Expr.decision operator left.isAbsent lefts rights))
      fun trace holds => trace.value = .bool holds := by
  unfold evaluate
  refine .after (a := Expr.row operator left right action) (fun s => ?_) ?_
  · refine ⟨s.noted (.visit (.condition id) depth), ?_, s.sight_noted rfl⟩
    simp [findCondition, checkDepth, Nat.not_lt.mpr hdepth, hrow]
  · refine .bind (.entering hnew (evaluateRow_matches hleft hright)) fun trace holds hholds => ?_
    rw [Trace.holds_of_value_eq hholds]
    exact .bind (.store id _) fun _ _ _ => .pure hholds

end Engine

namespace Expr.Placed

variable {σ : Type} {engine : Engine σ} {operation : Conditional} {held : Step → Step} {id : Uid}
  {operator : Option Operator} {left right : Expr} {action : Option WorkUnit}

theorem of_left (h : (condition id operator left right action).Placed engine operation held) :
    left.Placed engine operation held where
  rows entry hentry := h.rows entry (by simp [hentry])
  kinds uid huid := h.kinds uid (by simp [ids, huid])
  nodup := by
    have := h.nodup
    rw [ids, List.append_assoc] at this
    exact (List.nodup_append.mp this).1
  outputs reference hreference := h.outputs reference (by simp [Expr.outputs, hreference])
  actions unit hunit := h.actions unit (by simp [Expr.actions, hunit])

theorem of_right (h : (condition id operator left right action).Placed engine operation held) :
    right.Placed engine operation held where
  rows entry hentry := h.rows entry (by simp [hentry])
  kinds uid huid := h.kinds uid (by simp [ids, huid])
  nodup := by
    have := h.nodup
    rw [ids] at this
    exact (List.nodup_append.mp (List.nodup_append.mp this).1).2.1
  outputs reference hreference := h.outputs reference (by simp [Expr.outputs, hreference])
  actions unit hunit := h.actions unit (by simp [Expr.actions, hunit])

theorem get?_row (h : (condition id operator left right action).Placed engine operation held) :
    operation.conditions.get? id = some (row operator left right action) :=
  h.rows (id, row operator left right action) (by simp)

theorem of_action (h : (condition id operator left right action).Placed engine operation held) :
    ∀ unit ∈ action, ∃ step, unit = .step step ∧ WorkKind.of? step.id ≠ some .operation ∧
      engine.script.steps.get? step.id = some (held step) :=
  fun unit hunit => h.actions unit (by simp [Expr.actions, Option.mem_toList.mpr hunit])

theorem not_mem_ids (h : (condition id operator left right action).Placed engine operation held) :
    id ∉ left.ids ∧ id ∉ right.ids := by
  have := h.nodup
  rw [ids, List.nodup_append] at this
  constructor
  · exact fun hmem => this.2.2 id (by simp [hmem]) id (by simp) rfl
  · exact fun hmem => this.2.2 id (by simp [hmem]) id (by simp) rfl

end Expr.Placed

namespace Engine

variable {σ : Type} {engine : Engine σ} {operation : Conditional} {held : Step → Step}

/-- An operand comes to the value of its tree, with all that happens on the way, if there is room
for the conditions that stand in each other and none of them is open. -/
def Faithful (engine : Engine σ) (operation : Conditional) (held : Step → Step) (e : Expr) : Prop :=
  ∀ ⦃room depth : Nat⦄ ⦃path : List Uid⦄, e.levels ≤ room →
    depth + e.levels ≤ engine.executor.maxDepth → (∀ id ∈ e.ids, id ∉ path) →
    Matches (engine.operandOrNull (engine.calls room) operation e.operand? depth path)
      (e.value (engine.executor.perform held)) fun trace value => trace.value = value

variable {id : Uid} {operator : Option Operator} {left right : Expr} {action : Option WorkUnit}
  {room depth : Nat} {path : List Uid}

theorem evaluate_settles
    (hplaced : (Expr.condition id operator left right action).Placed engine operation held)
    (hleft : engine.Faithful operation held left) (hright : engine.Faithful operation held right)
    (hroom : max left.levels right.levels ≤ room)
    (hdepth : depth + max left.levels right.levels ≤ engine.executor.maxDepth)
    (hnew : ∀ uid ∈ (Expr.condition id operator left right action).ids, uid ∉ path) :
    Matches (engine.evaluate (engine.calls room) operation id depth path)
      (settle id (Expr.decision operator left.isAbsent
        (left.value (engine.executor.perform held)) (right.value (engine.executor.perform held))))
      fun trace holds => trace.value = .bool holds := by
  have hbelow : ∀ uid, uid ∈ left.ids ∨ uid ∈ right.ids → uid ∉ id :: path := by
    intro uid huid hmem
    rcases List.mem_cons.mp hmem with rfl | hmem
    · exact huid.elim hplaced.not_mem_ids.1 hplaced.not_mem_ids.2
    · exact hnew uid (by rcases huid with h | h <;> simp [Expr.ids, h]) hmem
  refine evaluate_matches hplaced.get?_row (by omega) (hnew id (by simp [Expr.ids])) ?_ ?_
  · exact hleft (by omega) (by omega) fun uid huid => hbelow uid (.inl huid)
  · exact hright (by omega) (by omega) fun uid huid => hbelow uid (.inr huid)

theorem faithful_of_placed (e : Expr) (hplaced : e.Placed engine operation held) :
    engine.Faithful operation held e := by
  -- A condition takes one of room and depth, and its own identifier is on the path for its sides.
  induction e with
  | absent =>
    intro room depth path _ _ _
    exact .pure rfl
  | literal value =>
    intro room depth path _ _ _ s t hst
    exact .ok rfl hst
  | output reference =>
    intro room depth path _ _ _
    have hnone := hplaced.outputs reference (List.mem_singleton_self _)
    simp only [Expr.operand?, operandOrNull, OutputRef.operand, operand, hnone, ite_self]
    exact look_matches reference
  | condition id operator left right action ihleft ihright =>
    intro room depth path hroom hdepth hnew
    simp only [Expr.levels] at hroom hdepth
    obtain ⟨room, rfl⟩ : ∃ below, room = below + 1 := ⟨room - 1, by omega⟩
    have hkind : WorkKind.of? id = some .condition := hplaced.kinds id (by simp [Expr.ids])
    simp only [Expr.operand?, operandOrNull, operand, if_pos hkind, hplaced.get?_row, if_pos]
    refine .bind (evaluate_settles hplaced (ihleft hplaced.of_left) (ihright hplaced.of_right)
      (by omega) (by omega) hnew) fun trace holds hholds => ?_
    rw [Trace.holds_of_value_eq hholds]
    cases holds with
    | false => exact .pure hholds
    | true => exact .bind (runAction_matches hplaced.of_action) fun _ _ _ => .pure hholds

theorem runConditions_matches {condition : Condition} {uid : Uid}
    (hplaced : condition.expr.Placed engine operation held)
    (hroom : condition.nesting < room) (hdepth : condition.nesting ≤ engine.executor.maxDepth)
    (hnew : ∀ id ∈ condition.expr.ids, id ∉ path) :
    Matches
      (engine.runConditions (engine.calls room) uid operation 0 path [condition.id] [])
      (condition.expr.value (engine.executor.perform held))
      fun matched value => matched = if value.isTruthy then [condition.id] else [] := by
  obtain ⟨room, rfl⟩ : ∃ below, room = below + 1 := ⟨room - 1, by omega⟩
  have hleft := faithful_of_placed condition.left hplaced.of_left
  have hright := faithful_of_placed condition.right hplaced.of_right
  simp only [runConditions, hplaced.get?_row]
  refine .bind (evaluate_settles hplaced hleft hright (Nat.le_of_lt_succ hroom)
    (by simpa [Condition.nesting] using hdepth) hnew) fun trace holds hholds => ?_
  rw [Trace.holds_of_value_eq hholds]
  cases holds with
  | false => exact .after_record (.pure rfl)
  | true =>
    refine .bind (runAction_matches hplaced.of_action) fun _ _ _ => .after_record ?_
    split
    · exact .pure rfl
    · exact .pure rfl

theorem runOperation_matches {condition : Condition} {uid : Uid}
    (hoperation : engine.script.operations.get? uid = some (.conditional operation))
    (horder : operation.order = [condition.id])
    (hplaced : condition.expr.Placed engine operation held) (hnew : uid ∉ condition.expr.ids)
    (hroom : condition.nesting < room) (hdepth : condition.nesting ≤ engine.executor.maxDepth) :
    Matches (engine.runOperation (engine.calls room) uid 0 [])
      (condition.meaning uid (engine.executor.perform held)) fun _ _ => True := by
  unfold runOperation
  refine .after (a := operation) (fun s => ?_) ?_
  · refine ⟨s.noted (.visit (.operation uid) 0), ?_, s.sight_noted rfl⟩
    simp [findOperation, checkDepth, hoperation]
  · rw [horder]
    have hin : ∀ id ∈ condition.expr.ids, id ∉ [uid] := by
      intro id hid hmem
      exact hnew (List.mem_singleton.mp hmem ▸ hid)
    refine .bind (.entering (List.not_mem_nil) (runConditions_matches hplaced hroom hdepth hin))
      fun matched value hmatched => ?_
    rw [hmatched]
    exact .store uid _

end Engine

def Executor.affirming : Executor Unit where
  defaultRunner := some fun _ _ =>
    (.ok (.object [("output", .object [("result", .bool true)])]), ())

namespace Condition

variable {σ : Type} {condition : Condition} {id : Uid}

def operation (condition : Condition) (id : Uid) : Conditional where
  id
  conditions := Table.ofList condition.expr.rows
  order := [condition.id]

def script (condition : Condition) (id : Uid) : Script :=
  (Flow.push {} (Bundle.ofConditions id [condition])).script

theorem order_script (condition : Condition) (id : Uid) :
    (condition.script id).order.uids = [id] := by
  simp only [script, Flow.push, Bundle.id, Bundle.operation_ofConditions]
  rfl

theorem get?_operations_script :
    (condition.script id).operations.get? id = some (.conditional (condition.operation id)) := by
  simp only [script, Flow.push, Bundle.id, Bundle.operation_ofConditions, Table.get?_insert,
    if_true, operation]

theorem get?_steps_script (uid : Uid) :
    (condition.script id).steps.get? uid = condition.copies.reverse.lookup uid := by
  simp only [script, Flow.push, Table.get?_merge, Bundle.steps_ofConditions, Table.ofList,
    Table.get?_insertAll]
  exact (Option.or_none).trans Option.or_none

theorem get?_row_operation (hregular : condition.Regular) {entry : Uid × ConditionRow}
    (h : entry ∈ condition.expr.rows) :
    (condition.operation id).conditions.get? entry.1 = some entry.2 :=
  Table.get?_insertAll_of_mem (condition.expr.map_fst_rows ▸ hregular.nodup) h

theorem get?_operation_eq_none {uid : Uid} (h : uid ∉ condition.expr.ids) :
    (condition.operation id).conditions.get? uid = none := by
  have hlookup : condition.expr.rows.reverse.lookup uid = none := by
    rw [List.lookup_eq_none_iff]
    intro entry hentry
    have hmem : entry.1 ∈ condition.expr.ids :=
      condition.expr.map_fst_rows ▸ List.mem_map_of_mem (List.mem_reverse.mp hentry)
    simpa using fun heq : uid = entry.1 => h (heq ▸ hmem)
  rw [operation, Table.ofList, Table.get?_insertAll, hlookup]
  rfl

theorem placed (hregular : condition.Regular) {executor : Executor σ} {held : Step → Step}
    (hheld : ∀ step, .step step ∈ condition.work → condition.held step = held step) :
    condition.expr.Placed ⟨executor, condition.script id⟩ (condition.operation id) held where
  rows _ hentry := get?_row_operation hregular hentry
  kinds := hregular.kinds
  nodup := hregular.nodup
  outputs reference hreference := get?_operation_eq_none (hregular.outputs reference hreference)
  actions unit hunit := by
    have hmem : unit ∈ condition.work := Expr.mem_work_of_mem_actions hunit
    obtain ⟨hstep, hkind⟩ := hregular.actions unit hunit
    cases unit with
    | operation bundle => exact absurd hstep Bool.false_ne_true
    | step step =>
      refine ⟨step, rfl, hkind, ?_⟩
      rw [get?_steps_script, lookup_copies hmem, hheld step hmem]

theorem nesting_add_two_le (hregular : condition.Regular)
    (hid : WorkKind.of? id = some .operation) :
    condition.nesting + 2 ≤ (condition.script id).enterable.length := by
  have hnodup : (id :: condition.expr.ids).Nodup := by
    refine List.nodup_cons.mpr ⟨fun hmem => ?_, hregular.nodup⟩
    have := hregular.kinds id hmem
    simp [hid] at this
  have hsub : ∀ uid ∈ id :: condition.expr.ids, uid ∈ (condition.script id).enterable := by
    intro uid huid
    rcases List.mem_cons.mp huid with rfl | huid
    · exact Script.mem_enterable_of_operation get?_operations_script
    · rw [← Expr.map_fst_rows] at huid
      obtain ⟨entry, hentry, rfl⟩ := List.mem_map.mp huid
      exact Script.HasRow.mem_enterable
        ⟨get?_operations_script, get?_row_operation hregular hentry⟩
  have hle := (hnodup.subperm hsub).length_le
  have hlevels : condition.nesting + 1 ≤ condition.expr.ids.length :=
    condition.expr.levels_le_length_ids
  rw [List.length_cons] at hle
  omega

theorem executeFrom_matches (hregular : condition.Regular) (hid : WorkKind.of? id = some .operation)
    (executor : Executor σ) (hnesting : condition.nesting ≤ executor.maxDepth)
    {held : Step → Step}
    (hheld : ∀ step, .step step ∈ condition.work → condition.held step = held step) :
    Run.Matches (Engine.runAll ⟨executor, condition.script id⟩ [id])
      (condition.meaning id (executor.perform held)) fun _ _ => True := by
  have hnew : id ∉ condition.expr.ids := by
    intro hmem
    have := hregular.kinds id hmem
    simp [hid] at this
  have hroom := nesting_add_two_le hregular hid
  obtain ⟨room, hlength⟩ : ∃ room, (condition.script id).enterable.length = room + 1 :=
    ⟨(condition.script id).enterable.length - 1, by omega⟩
  have hcontains : (condition.script id).operations.contains id := by
    simp [Table.contains, get?_operations_script]
  refine .before_pure (V := fun _ _ => True) ?_ fun _ => trivial
  simp only [Engine.runListed, hcontains, if_true, hlength]
  exact Engine.runOperation_matches get?_operations_script rfl (placed hregular hheld) hnew
    (by omega) hnesting

/-- Pushed as the only one of an operation, the condition runs as its tree says, with the same end,
results, calls and stores, where an action calls the runner for the copy of its step that is held.
-/
def RunsWith (condition : Condition) (held : Step → Step) (executor : Executor σ) (id : Uid)
    (results : Table Json) (runners : σ) : Prop :=
  let script := (Flow.push {} (Bundle.ofConditions id [condition])).script
  let run := executor.executeFrom script results runners
  let meant := (condition.meaning id (executor.perform held)).outcome { results, runners }
  run.1 = meant.1 ∧ run.2.sight = meant.2.sight

/-- A regular condition that does not nest deeper than the executor allows runs as it is meant: of
several copies of a step the one that was collected last is called, and where the copies of every
step are equal, each action is done as it stands in the tree. -/
theorem runs_as_meant (executor : Executor σ) (condition : Condition) (id : Uid)
    (results : Table Json) (runners : σ) (hid : WorkKind.of? id = some .operation)
    (hregular : condition.Regular) (hnesting : condition.nesting ≤ executor.maxDepth) :
    condition.RunsWith condition.held executor id results runners ∧
      (condition.Consistent →
        condition.RunsWith (fun step => step) executor id results runners) := by
  have hruns : ∀ held, (∀ step, .step step ∈ condition.work → condition.held step = held step) →
      condition.RunsWith held executor id results runners := by
    intro held hheld
    have halike := executeFrom_matches hregular hid executor hnesting hheld
      { results, runners } { results, runners } rfl
    have hstart : executor.executeFrom (condition.script id) results runners =
        (Engine.runAll ⟨executor, condition.script id⟩ [id]).outcome { results, runners } := by
      rw [← condition.order_script id]
      rfl
    rw [← hstart] at halike
    exact halike.eq
  exact ⟨hruns _ fun _ _ => rfl,
    fun hconsistent => hruns _ fun _ => held_of_consistent hconsistent⟩

def firstStep : Step := ⟨"step_1", .native, .native .null, none, [], 0⟩

def nestedAction : Condition where
  id := "cond_2"
  operator := some .and
  left := .condition "cond_1" none (.literal (.bool true)) .absent (some (.step firstStep))
  right := .output ⟨.step firstStep, "result", by decide⟩
  action := some (.step { firstStep with id := "step_2" })

theorem nestedAction_runs_as_meant :
    nestedAction.RunsWith nestedAction.held Executor.affirming "op_1" ∅ () ∧
      nestedAction.RunsWith (fun step => step) Executor.affirming "op_1" ∅ () := by
  have hregular : nestedAction.Regular := ⟨⟨by decide, by decide⟩, by decide, by decide⟩
  have hconsistent : nestedAction.Consistent := by decide
  obtain ⟨hheld, htree⟩ :=
    runs_as_meant Executor.affirming nestedAction "op_1" ∅ () (by decide) hregular (by decide)
  exact ⟨hheld, htree hconsistent⟩

/-- The right side mentions a native copy of the step that the action has as a web request. It is
never read, but collected last. -/
def twoCopies : Condition where
  id := "cond_1"
  operator := some .or
  left := .literal (.bool true)
  right := .output ⟨.step firstStep, "result", by decide⟩
  action := some (.step ⟨"step_1", .web, .web { action := .post, url := "http://x" }, none, [], 0⟩)

def misnamedStep : Condition where
  id := "cond_1"
  action := some (.step { firstStep with id := "op_2" })

/-- The step whose output is read is named like the condition. -/
def namesake : Condition where
  id := "cond_1"
  left := .output ⟨.step { firstStep with id := "cond_1" }, "result", by decide⟩

/-- Of two copies of a step the one is called that does not stand where it is run, a step that is
named like an operation is not found, and one that is named like the condition is taken for it. -/
theorem not_as_in_tree :
    (twoCopies.Labelled ∧ twoCopies.nesting ≤ Executor.affirming.maxDepth ∧
      ¬ twoCopies.RunsWith (fun step => step) Executor.affirming "op_1" ∅ ()) ∧
    (misnamedStep.Labelled ∧ misnamedStep.nesting ≤ Executor.affirming.maxDepth ∧
      ¬ misnamedStep.RunsWith (fun step => step) Executor.affirming "op_1" ∅ ()) ∧
    (namesake.Labelled ∧ namesake.nesting ≤ Executor.affirming.maxDepth ∧
      ¬ namesake.RunsWith (fun step => step) Executor.affirming "op_1" ∅ ()) := by
  refine ⟨⟨⟨by decide, by decide⟩, by decide, fun hruns => ?_⟩,
    ⟨⟨by decide, by decide⟩, by decide, fun hruns => ?_⟩,
    ⟨⟨by decide, by decide⟩, by decide, fun hruns => ?_⟩⟩
  · have hcalled := congrArg (fun sight => sight.effects.filterMap Event.called?) hruns.2
    exact absurd hcalled (by decide)
  · exact absurd hruns.1 (by decide)
  · exact absurd hruns.1 (by decide)

end Condition

end Workflow
