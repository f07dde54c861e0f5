import Workflow.Proofs.Run.Moves

/-!
Ways around a dependency. What runs first is settled by the order of a script, and by what its
conditions read and how they come out. Here this is told of the script alone, for courses on which
some dependency gets no result.
-/

set_option autoImplicit false

namespace Workflow

/-- What a course may come to, with the open frames around it and the results at that point; what
has ended tells those from which it started too. -/
inductive Stage where
  | order (rest : List Uid) (results : Table Json)
  | operation (uid : Uid) (frames : List Frame) (results : Table Json)
  /-- These conditions of the operation are left, and those others held. -/
  | conditions (uid : Uid) (frames : List Frame) (start : Table Json) (rest matched : List Uid)
      (results : Table Json)
  | condition (uid condition : Uid) (frames : List Frame) (results : Table Json)
  | operand (uid : Uid) (frames : List Frame) (operand : Option Operand) (start : Table Json)
      (value : Json) (results : Table Json)
  | verdict (uid condition : Uid) (frames : List Frame) (start : Table Json) (holds : Bool)
      (results : Table Json)
  | step (uid : Uid) (frames : List Frame) (results : Table Json)
  | acted (uid condition : Uid) (frames : List Frame) (start results : Table Json)
  | done (uid : Uid) (frames : List Frame) (start results : Table Json)

namespace ConditionRow

variable {row : ConditionRow} {left right : Trace}

/-- The right side makes no difference and is not looked at. -/
def isSettledBy (row : ConditionRow) (left : Json) : Bool :=
  match row.operator with
  | none => true
  | some operator => operator.isUnary || operator.isDecidedBy left

def outcome (row : ConditionRow) (left right : Json) : Bool :=
  match row.operator with
  | none => row.left.isNone || left.isTruthy
  | some operator => operator.apply left right

def settled (row : ConditionRow) (left : Trace) : Trace :=
  match row.operator with
  | none => if row.left.isNone then .otherwise else .precomputed left left.holds
  | some operator =>
    if operator.isUnary then .unary operator left (operator.apply left.value .null)
    else .binary operator left .notEvaluated (operator = .or)

def compared (row : ConditionRow) (left right : Trace) : Trace :=
  match row.operator with
  | none => .otherwise
  | some operator => .binary operator left right (operator.apply left.value right.value)

theorem value_settled (h : row.isSettledBy left.value) :
    (row.settled left).value = .bool (row.outcome left.value .null) := by
  cases hoperator : row.operator with
  | none =>
    cases hleft : row.left <;>
      simp [settled, outcome, hoperator, hleft, Trace.value, Trace.holds]
  | some operator =>
    cases hunary : operator.isUnary with
    | true => simp [settled, outcome, hoperator, hunary, Trace.value]
    | false =>
      cases operator <;>
        simp_all [settled, outcome, isSettledBy, Trace.value, Operator.isDecidedBy, Operator.apply]

theorem value_compared (h : row.isSettledBy left.value = false) :
    (row.compared left right).value = .bool (row.outcome left.value right.value) := by
  cases hoperator : row.operator with
  | none => simp [isSettledBy, hoperator] at h
  | some operator => simp [compared, outcome, hoperator, Trace.value]

end ConditionRow

/-- A row is evaluated from left to right, as far as its sides matter. -/
theorem Engine.evaluateRow_eq {σ : Type} (engine : Engine σ) (below : Below σ)
    (operation : Conditional) (row : ConditionRow) (depth : Nat) (path : List Uid) :
    engine.evaluateRow below operation row depth path = do
      let left ← engine.operandOrNull below operation row.left depth path
      if row.isSettledBy left.value then return row.settled left
      else
        let right ← engine.operandOrNull below operation row.right depth path
        return row.compared left right := by
  cases hoperator : row.operator with
  | none =>
    cases hleft : row.left <;>
      simp [evaluateRow, operandOrNull, ConditionRow.isSettledBy, ConditionRow.settled, hoperator,
        hleft]
  | some operator =>
    simp only [evaluateRow, hoperator, ConditionRow.isSettledBy, ConditionRow.compared]
    refine congrArg _ (funext fun left => ?_)
    cases hunary : operator.isUnary with
    | true => simp [ConditionRow.settled, hoperator, hunary]
    | false => simp [ConditionRow.settled, hoperator, hunary]

/-- What is read is a condition of the same operation, which is evaluated on the spot. -/
def Conditional.Evaluates (operation : Conditional) (owner : Uid) : Prop :=
  WorkKind.of? owner = some .condition ∧ operation.conditions.contains owner

/-- Courses of a script, on top of given results, on which the dependency gets no result. -/
structure Detour where
  script : Script
  policy : MatchPolicy
  given : Table Json
  dependency : Uid

/-- The stages of such courses. A step may answer anything. -/
inductive Detour.Passes (detour : Detour) : Stage → Prop
  | order : Passes detour (.order detour.script.order.uids detour.given)
  | operation {uid : Uid} {rest : List Uid} {r : Table Json} :
      Passes detour (.order (uid :: rest) r) → Passes detour (.operation uid [] r)
  | next {uid : Uid} {rest : List Uid} {r s : Table Json} :
      Passes detour (.order (uid :: rest) r) → Passes detour (.done uid [] r s) →
      Passes detour (.order rest s)
  | conditions {uid : Uid} {operation : Conditional} {frames : List Frame} {r : Table Json} :
      Passes detour (.operation uid frames r) →
      detour.script.operations.get? uid = some (.conditional operation) →
      Passes detour (.conditions uid frames r operation.order [] r)
  | condition {uid condition : Uid} {frames : List Frame} {rest matched : List Uid}
      {r s : Table Json} :
      Passes detour (.conditions uid frames r (condition :: rest) matched s) →
      condition ∉ Frame.path (.operation uid :: frames) →
      Passes detour (.condition uid condition (.operation uid :: frames) s)
  | left {uid reader condition : Uid} {operation : Conditional} {row : ConditionRow}
      {frames : List Frame} {s : Table Json} :
      Passes detour (.condition uid reader frames s) →
      detour.script.HasRow uid operation reader row →
      row.left = some (.internal condition Operand.conditionKey) → operation.Evaluates condition →
      condition ∉ Frame.path (.condition reader :: frames) →
      Passes detour (.condition uid condition (.condition reader :: frames) s)
  | right {uid reader condition : Uid} {operation : Conditional} {row : ConditionRow}
      {frames : List Frame} {left : Json} {s t : Table Json} :
      Passes detour (.condition uid reader frames s) →
      detour.script.HasRow uid operation reader row →
      Passes detour (.operand uid (.condition reader :: frames) row.left s left t) →
      row.isSettledBy left = false →
      row.right = some (.internal condition Operand.conditionKey) → operation.Evaluates condition →
      condition ∉ Frame.path (.condition reader :: frames) →
      Passes detour (.condition uid condition (.condition reader :: frames) t)
  | missing {uid : Uid} {frames : List Frame} {s : Table Json} :
      Passes detour (.operand uid frames none s .null s)
  | static {uid : Uid} {frames : List Frame} {value : Json} {s : Table Json} :
      Passes detour (.operand uid frames (some (.static value)) s value s)
  | read {uid owner : Uid} {operation : Conditional} {frames : List Frame} {key : String}
      {record value : Json} {s : Table Json} :
      detour.script.operations.get? uid = some (.conditional operation) →
      ¬ operation.Evaluates owner → s.get? owner = some record → record.lookup? key = some value →
      Passes detour (.operand uid frames (some (.internal owner key)) s value s)
  | fails {uid condition : Uid} {operation : Conditional} {frames : List Frame}
      {s t : Table Json} :
      detour.script.operations.get? uid = some (.conditional operation) →
      operation.Evaluates condition → Passes detour (.verdict uid condition frames s false t) →
      Passes detour (.operand uid frames (some (.internal condition Operand.conditionKey)) s
        (.bool false) t)
  /-- The work of a condition that is read is done before its reader goes on. -/
  | holds {uid condition : Uid} {operation : Conditional} {frames : List Frame}
      {s t u : Table Json} :
      detour.script.operations.get? uid = some (.conditional operation) →
      operation.Evaluates condition → Passes detour (.verdict uid condition frames s true t) →
      Passes detour (.acted uid condition frames t u) →
      Passes detour (.operand uid frames (some (.internal condition Operand.conditionKey)) s
        (.bool true) u)
  | settled {uid condition : Uid} {operation : Conditional} {row : ConditionRow}
      {frames : List Frame} {left : Json} {s t : Table Json} :
      Passes detour (.condition uid condition frames s) →
      detour.script.HasRow uid operation condition row →
      Passes detour (.operand uid (.condition condition :: frames) row.left s left t) →
      row.isSettledBy left → condition ≠ detour.dependency →
      Passes detour (.verdict uid condition frames s (row.outcome left .null) (t.insert condition
        (.object [("output", .object [("result", .bool (row.outcome left .null))])])))
  | compared {uid condition : Uid} {operation : Conditional} {row : ConditionRow}
      {frames : List Frame} {left right : Json} {s t u : Table Json} :
      Passes detour (.condition uid condition frames s) →
      detour.script.HasRow uid operation condition row →
      Passes detour (.operand uid (.condition condition :: frames) row.left s left t) →
      row.isSettledBy left = false →
      Passes detour (.operand uid (.condition condition :: frames) row.right t right u) →
      condition ≠ detour.dependency →
      Passes detour (.verdict uid condition frames s (row.outcome left right) (u.insert condition
        (.object [("output", .object [("result", .bool (row.outcome left right))])])))
  | nested {uid condition work : Uid} {operation : Conditional} {row : ConditionRow}
      {frames : List Frame} {s t : Table Json} :
      Passes detour (.verdict uid condition frames s true t) →
      detour.script.HasRow uid operation condition row → row.work = some work →
      WorkKind.of? work = some .operation → work ∉ Frame.path frames →
      Passes detour (.operation work frames t)
  | step {uid condition work : Uid} {operation : Conditional} {row : ConditionRow}
      {frames : List Frame} {s t : Table Json} :
      Passes detour (.verdict uid condition frames s true t) →
      detour.script.HasRow uid operation condition row → row.work = some work →
      WorkKind.of? work ≠ some .operation → Passes detour (.step work frames t)
  | idle {uid condition : Uid} {operation : Conditional} {row : ConditionRow}
      {frames : List Frame} {s t : Table Json} :
      Passes detour (.verdict uid condition frames s true t) →
      detour.script.HasRow uid operation condition row → row.work = none →
      Passes detour (.acted uid condition frames t t)
  | answered {uid condition work : Uid} {operation : Conditional} {row : ConditionRow}
      {frames : List Frame} {t : Table Json} (value : Json) :
      Passes detour (.step work frames t) → detour.script.HasRow uid operation condition row →
      row.work = some work → detour.script.steps.contains work → work ≠ detour.dependency →
      Passes detour (.acted uid condition frames t (t.insert work value))
  | ran {uid condition work : Uid} {operation : Conditional} {row : ConditionRow}
      {frames : List Frame} {t u : Table Json} :
      detour.script.HasRow uid operation condition row → row.work = some work →
      WorkKind.of? work = some .operation → Passes detour (.done work frames t u) →
      Passes detour (.acted uid condition frames t u)
  | failed {uid condition : Uid} {frames : List Frame} {rest matched : List Uid}
      {r s t : Table Json} :
      Passes detour (.conditions uid frames r (condition :: rest) matched s) →
      Passes detour (.verdict uid condition (.operation uid :: frames) s false t) →
      Passes detour (.conditions uid frames r rest matched t)
  | held {uid condition : Uid} {frames : List Frame} {rest matched : List Uid}
      {r s t u : Table Json} :
      Passes detour (.conditions uid frames r (condition :: rest) matched s) →
      Passes detour (.verdict uid condition (.operation uid :: frames) s true t) →
      Passes detour (.acted uid condition (.operation uid :: frames) t u) →
      Passes detour (.conditions uid frames r
        (if detour.policy = .firstMatch then [] else rest) (matched ++ [condition]) u)
  | ended {uid : Uid} {frames : List Frame} {matched : List Uid} {r s : Table Json} :
      Passes detour (.conditions uid frames r [] matched s) → uid ≠ detour.dependency →
      Passes detour (.done uid frames r (s.insert uid (.object [("output", .object [
        ("matched", .array (matched.map .string)), ("success", .bool true)])])))

/-- As far as the script tells, a run on top of no results may come to the stage while the
dependency has no result. -/
def Script.Bypasses (script : Script) (policy : MatchPolicy) (dependency : Uid)
    (stage : List Frame → Table Json → Stage) : Prop :=
  ∃ frames results, Detour.Passes ⟨script, policy, ∅, dependency⟩ (stage frames results)

/-- The identifier has no result here, or has got none since the start. -/
def Stage.Lacks (uid : Uid) : Stage → Prop
  | .order _ r | .operation _ _ r | .conditions _ _ _ _ _ r | .condition _ _ _ r
  | .verdict _ _ _ _ _ r | .step _ _ r => r.contains uid = false
  | .operand _ _ _ r _ s | .acted _ _ _ r s | .done _ _ r s =>
    r.contains uid = false → s.contains uid = false

/-- A row that comes out true whatever the results are. -/
structure ConditionRow.Always (row : ConditionRow) : Prop where
  operator_eq : row.operator = none
  left_truthy : ∀ operand, row.left = some operand → ∃ value : Json,
    operand = .static value ∧ value.isTruthy

namespace Detour.Passes

variable {detour : Detour} {uid condition : Uid} {operation : Conditional} {row : ConditionRow}
  {frames : List Frame} {r s t : Table Json}

theorem lacks {stage : Stage} (hgiven : detour.given.contains detour.dependency = false)
    (h : detour.Passes stage) : stage.Lacks detour.dependency := by
  have hinsert {uid : Uid} {value : Json} {results : Table Json} (hne : uid ≠ detour.dependency)
      (hresults : results.contains detour.dependency = false) :
      (results.insert uid value).contains detour.dependency = false := by
    simp [Table.contains_insert, hne.symm, hresults]
  induction h with
  | order => exact hgiven
  | operation _ ih | conditions _ _ ih | condition _ _ ih | left _ _ _ _ _ ih
  | nested _ _ _ _ _ ih | step _ _ _ _ ih | ran _ _ _ _ ih => exact ih
  | next _ _ ih ihdone => exact ihdone ih
  | right _ _ _ _ _ _ _ ih ihleft => exact ihleft ih
  | missing | static | read | idle => exact id
  | fails _ _ _ ih => exact fun _ => ih
  | holds _ _ _ _ ih ihacted => exact fun _ => ihacted ih
  | settled _ _ _ _ hne ih ihleft => exact hinsert hne (ihleft ih)
  | compared _ _ _ _ _ hne ih ihleft ihright => exact hinsert hne (ihright (ihleft ih))
  | answered _ _ _ _ _ hne => exact hinsert hne
  | failed _ _ ih ihverdict => exact ihverdict
  | held _ _ _ ih ihverdict ihacted => exact ihacted ihverdict
  | ended _ hne ih => exact fun _ => hinsert hne ih

theorem done_ne (h : detour.Passes (.done uid frames r s)) : uid ≠ detour.dependency := by
  cases h with
  | ended _ hne => exact hne

theorem exists_front {rest : List Uid} (h : detour.Passes (.order rest r)) :
    ∃ front, detour.script.order.uids = front ++ rest ∧
      ∀ uid ∈ front, ∃ r s, detour.Passes (.done uid [] r s) := by
  generalize heq : Stage.order rest r = stage at h
  induction h generalizing rest r with
  | order => cases heq; exact ⟨[], rfl, nofun⟩
  | @next uid _ start s _ hdone ih =>
    cases heq
    obtain ⟨front, horder, hfront⟩ := ih rfl
    refine ⟨front ++ [uid], by simpa using horder, fun earlier hmem => ?_⟩
    rcases List.mem_append.mp hmem with hmem | hmem
    · exact hfront earlier hmem
    · cases List.mem_singleton.mp hmem
      exact ⟨start, s, hdone⟩
  | _ => cases heq

theorem exists_row_of_step (h : detour.Passes (.step uid frames t)) :
    ∃ owner operation condition row s, detour.script.HasRow owner operation condition row ∧
      row.work = some uid ∧ detour.Passes (.verdict owner condition frames s true t) := by
  cases h with
  | step hverdict hrow hwork => exact ⟨_, _, _, _, _, hrow, hwork, hverdict⟩

theorem operation_of_conditions {rest matched : List Uid}
    (h : detour.Passes (.conditions uid frames r rest matched s)) :
    detour.Passes (.operation uid frames r) := by
  generalize heq : Stage.conditions uid frames r rest matched s = stage at h
  induction h generalizing rest matched s with
  | conditions h => cases heq; exact h
  | failed _ _ ih | held _ _ _ ih => cases heq; exact ih rfl
  | _ => cases heq

theorem operation_of_condition (h : detour.Passes (.condition uid condition frames s)) :
    ∃ around r, detour.Passes (.operation uid around r) := by
  generalize heq : Stage.condition uid condition frames s = stage at h
  induction h generalizing condition frames s with
  | condition h => cases heq; exact ⟨_, _, h.operation_of_conditions⟩
  | left _ _ _ _ _ ih | right _ _ _ _ _ _ _ ih => cases heq; exact ih rfl
  | _ => cases heq

theorem operation_of_verdict {holds : Bool}
    (h : detour.Passes (.verdict uid condition frames s holds t)) :
    ∃ around r, detour.Passes (.operation uid around r) := by
  cases h with
  | settled hcondition | compared hcondition => exact hcondition.operation_of_condition

theorem outcome_of_always {left : Json} (halways : row.Always)
    (h : detour.Passes (.operand uid frames row.left s left t)) (right : Json) :
    row.outcome left right = true := by
  simp only [ConditionRow.outcome, halways.operator_eq]
  cases hleft : row.left with
  | none => rfl
  | some operand =>
    obtain ⟨value, rfl, htruthy⟩ := halways.left_truthy operand hleft
    rw [hleft] at h
    cases h
    exact htruthy

theorem holds_of_always {holds : Bool}
    (h : detour.Passes (.verdict uid condition frames s holds t))
    (hrow : detour.script.HasRow uid operation condition row) (halways : row.Always) :
    holds = true := by
  cases h with
  | settled _ hfound hleft | compared _ hfound hleft =>
    cases hrow.row_eq hfound
    exact outcome_of_always halways hleft _

theorem not_acted (hrow : detour.script.HasRow uid operation condition row)
    (hwork : row.work = some detour.dependency) :
    ¬ detour.Passes (.acted uid condition frames s t) := by
  intro h
  cases h with
  | idle _ hfound hnone =>
    cases hrow.row_eq hfound
    cases hwork.symm.trans hnone
  | answered _ _ hfound hsome _ hne =>
    cases hrow.row_eq hfound
    exact hne (Option.some.inj (hsome.symm.trans hwork))
  | ran hfound hsome _ hdone =>
    cases hrow.row_eq hfound
    exact hdone.done_ne (Option.some.inj (hsome.symm.trans hwork))

theorem eq_order_of_always {rest matched : List Uid}
    (h : detour.Passes (.conditions uid frames r rest matched s))
    (hrow : detour.script.HasRow uid operation condition row)
    (hfirst : operation.order.head? = some condition) (halways : row.Always)
    (hwork : row.work = some detour.dependency) : rest = operation.order := by
  generalize heq : Stage.conditions uid frames r rest matched s = stage at h
  induction h generalizing rest matched s with
  | conditions _ hoperation =>
    cases heq
    rw [hrow.operation_eq hoperation]
  | @failed _ evaluated _ _ _ _ _ _ _ hverdict ih =>
    cases heq
    have hevaluated : evaluated = condition := by simpa [← ih rfl] using hfirst
    subst hevaluated
    cases hverdict.holds_of_always hrow halways
  | @held _ evaluated _ _ _ _ _ _ _ _ _ hacted ih =>
    cases heq
    have hevaluated : evaluated = condition := by simpa [← ih rfl] using hfirst
    subst hevaluated
    exact absurd hacted (not_acted hrow hwork)
  | _ => cases heq

theorem not_done_of_always (hrow : detour.script.HasRow uid operation condition row)
    (hfirst : operation.order.head? = some condition) (halways : row.Always)
    (hwork : row.work = some detour.dependency) : ¬ detour.Passes (.done uid frames r s) := by
  intro h
  cases h with
  | ended hconditions =>
    have hnil := hconditions.eq_order_of_always hrow hfirst halways hwork
    rw [← hnil] at hfirst
    cases hfirst

/-- An operation that nothing runs is not started, if some operation before it does not end. -/
theorem not_operation
    (hfront : ∀ front rest, detour.script.order.uids = front ++ uid :: rest →
      ∃ earlier ∈ front, ∀ r s, ¬ detour.Passes (.done earlier [] r s))
    (hwork : ∀ row ∈ detour.script.rows, row.work ≠ some uid) :
    ¬ detour.Passes (.operation uid frames r) := by
  intro h
  cases h with
  | operation horder =>
    obtain ⟨front, heq, hdone⟩ := horder.exists_front
    obtain ⟨earlier, hmem, hnone⟩ := hfront _ _ heq
    obtain ⟨r, s, hearlier⟩ := hdone earlier hmem
    exact hnone r s hearlier
  | nested _ hrow hruns =>
    exact hwork _ (Script.mem_rows hrow.get_operation hrow.get_row) hruns

end Detour.Passes

end Workflow
