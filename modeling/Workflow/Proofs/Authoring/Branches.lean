import Workflow.Proofs.Authoring.Family

/-!
Which row stands for a branch. All branches of an operation put their rows into one table, so that a
branch keeps its row unless a later one brings another row under the same identifier.
-/

set_option autoImplicit false

namespace Workflow

namespace Bundle

/-- The operation is built from these conditions, each with the action of its branch. -/
inductive BuiltFrom (id : Uid) : List Condition → Bundle → Prop
  | ofConditions (conditions : List Condition) :
      BuiltFrom id conditions (.ofConditions id conditions)
  | withCritical {conditions : List Condition} {bundle : Bundle} (critical : Bool) :
      BuiltFrom id conditions bundle → BuiltFrom id conditions (bundle.withCritical critical)
  | addDependency {conditions : List Condition} {bundle : Bundle} (uid : Uid) :
      BuiltFrom id conditions bundle → BuiltFrom id conditions (bundle.addDependency uid)
  | andThen {conditions : List Condition} {branch : OpenBranch} (action : WorkUnit) :
      BuiltFrom id conditions branch.bundle →
      BuiltFrom id (conditions ++ [branch.pending.withAction action]) (branch.andThen action).close
  | otherwise {conditions : List Condition} {branches : Branches} (uid : Uid) (action : WorkUnit) :
      BuiltFrom id conditions branches.close →
      BuiltFrom id (conditions ++ [(Condition.otherwise uid).withAction action])
        (branches.otherwise uid action)

def unconfigured (bundle : Bundle) : Bundle :=
  { bundle with operation := { bundle.operation with critical := true, dependsOn := [] } }

theorem unconfigured_foldl_addWork (units : List WorkUnit) (bundle : Bundle) :
    (units.foldl addWork bundle).unconfigured = units.foldl addWork bundle.unconfigured := by
  induction units generalizing bundle with
  | nil => rfl
  | cons unit units ih =>
    have hunit : (bundle.addWork unit).unconfigured = bundle.unconfigured.addWork unit := by
      cases unit <;> rfl
    rw [List.foldl_cons, List.foldl_cons, ih, hunit]

theorem unconfigured_addCondition (bundle : Bundle) (condition : Condition) :
    (bundle.addCondition condition).unconfigured = bundle.unconfigured.addCondition condition := by
  simp only [addCondition, ← unconfigured_foldl_addWork]
  rfl

theorem unconfigured_foldl_addCondition (conditions : List Condition) (bundle : Bundle) :
    (conditions.foldl addCondition bundle).unconfigured =
      conditions.foldl addCondition bundle.unconfigured := by
  induction conditions generalizing bundle with
  | nil => rfl
  | cons condition conditions ih =>
    rw [List.foldl_cons, List.foldl_cons, ih, unconfigured_addCondition]

theorem ofConditions_append_singleton (id : Uid) (conditions : List Condition)
    (condition : Condition) :
    ofConditions id (conditions ++ [condition]) =
      (ofConditions id conditions).addCondition condition := by
  simp only [ofConditions, List.foldl_append, List.foldl_cons, List.foldl_nil]

theorem BuiltFrom.unconfigured_eq {id : Uid} {conditions : List Condition} {bundle : Bundle}
    (h : bundle.BuiltFrom id conditions) : bundle.unconfigured = .ofConditions id conditions := by
  induction h with
  | ofConditions conditions => exact unconfigured_foldl_addCondition conditions (.empty id)
  | withCritical _ _ ih | addDependency _ _ ih => exact ih
  | @andThen _ branch action _ ih =>
    rw [ofConditions_append_singleton, ← ih]
    exact unconfigured_addCondition branch.bundle _
  | @otherwise _ branches _ _ _ ih =>
    rw [ofConditions_append_singleton, ← ih]
    exact unconfigured_addCondition branches.bundle _

theorem operation_foldl_addCondition (conditions : List Condition) (bundle : Bundle) :
    (conditions.foldl addCondition bundle).operation =
      { bundle.operation with
        conditions := bundle.operation.conditions.insertAll (conditions.flatMap Condition.rows)
        order := bundle.operation.order ++ conditions.map Condition.id } := by
  induction conditions generalizing bundle with
  | nil => simp [Table.insertAll]
  | cons condition conditions ih =>
    have hrows : condition.expr.rows = condition.rows := rfl
    rw [List.foldl_cons, ih, operation_addCondition, hrows]
    simp [Table.insertAll_append]

namespace BuiltFrom

variable {id : Uid} {conditions : List Condition} {bundle : Bundle}

theorem operation_eq (h : bundle.BuiltFrom id conditions) :
    bundle.unconfigured.operation = {
      id
      conditions := Table.ofList (conditions.flatMap Condition.rows)
      order := conditions.map Condition.id } := by
  rw [h.unconfigured_eq, Bundle.ofConditions, operation_foldl_addCondition]
  rfl

theorem order_eq (h : bundle.BuiltFrom id conditions) :
    bundle.operation.order = conditions.map Condition.id :=
  congrArg Conditional.order h.operation_eq

theorem get?_conditions (h : bundle.BuiltFrom id conditions) (uid : Uid) :
    bundle.operation.conditions.get? uid =
      (conditions.flatMap Condition.rows).reverse.lookup uid := by
  have hconditions : bundle.operation.conditions =
      Table.ofList (conditions.flatMap Condition.rows) :=
    congrArg Conditional.conditions h.operation_eq
  rw [hconditions, Table.ofList, Table.get?_insertAll]
  exact Option.or_none

end BuiltFrom

end Bundle

namespace Condition

theorem lookup_reverse_rows (condition : Condition) :
    condition.rows.reverse.lookup condition.id = some condition.row := by
  change condition.expr.rows.reverse.lookup condition.id = some condition.row
  simp [expr, row]

theorem exists_of_lookup_rows {conditions : List Condition} {uid : Uid} {row : ConditionRow}
    (h : (conditions.flatMap Condition.rows).reverse.lookup uid = some row) :
    ∃ condition ∈ conditions, ∃ c ∈ condition.expr.conditions, c.id = uid ∧ c.row = row := by
  obtain ⟨before, after, heq, -⟩ := List.lookup_eq_some_iff.mp h
  have hmem : (uid, row) ∈ conditions.flatMap Condition.rows := by
    rw [← List.mem_reverse, heq]
    simp
  obtain ⟨condition, hcondition, hrow⟩ := List.mem_flatMap.mp hmem
  obtain ⟨c, hc, hentry⟩ := Expr.mem_rows_iff.mp hrow
  obtain ⟨rfl, rfl⟩ := Prod.mk.inj hentry
  exact ⟨condition, hcondition, c, hc, rfl, rfl⟩

end Condition

namespace Bundle

/-- The order lists the conditions as they were given, and under each identifier the last row that
bears it is found. So a branch keeps its action as long as the conditions of later branches that
share its identifier have the same one. -/
theorem BuiltFrom.order_and_rows {id : Uid} {conditions : List Condition} {bundle : Bundle}
    (h : bundle.BuiltFrom id conditions) :
    bundle.operation.order = conditions.map Condition.id ∧
      (∀ uid, bundle.operation.conditions.get? uid =
        (conditions.flatMap Condition.rows).reverse.lookup uid) ∧
      ∀ before condition after, conditions = before ++ condition :: after →
        (∀ later ∈ after, ∀ c ∈ later.expr.conditions, c.id = condition.id →
          c.action.map WorkUnit.id = condition.action.map WorkUnit.id) →
        ∃ row, bundle.operation.conditions.get? condition.id = some row ∧
          row.work = condition.action.map WorkUnit.id := by
  refine ⟨h.order_eq, h.get?_conditions, ?_⟩
  rintro before condition after rfl hlater
  rw [h.get?_conditions, List.flatMap_append, List.flatMap_cons, List.reverse_append,
    List.reverse_append, List.lookup_append, List.lookup_append, Condition.lookup_reverse_rows]
  cases hfound : (after.flatMap Condition.rows).reverse.lookup condition.id with
  | none => exact ⟨condition.row, rfl, rfl⟩
  | some row =>
    obtain ⟨later, hmem, c, hc, hid, rfl⟩ := Condition.exists_of_lookup_rows hfound
    exact ⟨c.row, rfl, hlater later hmem c hc hid⟩

def asked : Condition := .precomputed "cond_1" (.literal (.bool true))

def askedAgain (copy : Condition) : Condition :=
  .compare "cond_2" copy.expr .and (.literal (.bool true))

def noted (id : Uid) : WorkUnit := .step ⟨id, .native, .native .null, none, [], 0⟩

def twoBranches (copy : Condition) : Bundle :=
  ((((empty "op_1").ifCondition asked).andThen (noted "step_1")).elifCondition
    (askedAgain copy)).andThen (noted "step_2") |>.close

theorem twoBranches_builtFrom (copy : Condition) :
    (twoBranches copy).BuiltFrom "op_1"
      [asked.withAction (noted "step_1"), (askedAgain copy).withAction (noted "step_2")] := by
  let first := (empty "op_1").ifCondition asked
  let second := (first.andThen (noted "step_1")).elifCondition (askedAgain copy)
  have hfirst := @BuiltFrom.andThen "op_1" [] first (noted "step_1") (.ofConditions [])
  exact @BuiltFrom.andThen "op_1" _ second (noted "step_2") hfirst

theorem twoBranches_order_and_rows :
    let built := twoBranches (asked.withAction (noted "step_1"))
    built.operation.order = ["cond_1", "cond_2"] ∧
      ∃ row, built.operation.conditions.get? "cond_1" = some row ∧ row.work = some "step_1" := by
  obtain ⟨horder, -, hkeeps⟩ :=
    BuiltFrom.order_and_rows (twoBranches_builtFrom (asked.withAction (noted "step_1")))
  exact ⟨horder, hkeeps [] _ [_] rfl (by decide)⟩

/-- A copy without it takes the row of the first branch, which then runs nothing. -/
theorem twoBranches_lose_action :
    let conditions := [asked.withAction (noted "step_1"),
      (askedAgain asked).withAction (noted "step_2")]
    (twoBranches asked).BuiltFrom "op_1" conditions ∧
      (conditions.map fun condition => condition.action.map WorkUnit.id) =
        [some "step_1", some "step_2"] ∧
      ((twoBranches asked).operation.order.map fun uid =>
        ((twoBranches asked).operation.conditions.get? uid).bind ConditionRow.work) =
        [none, some "step_2"] :=
  ⟨twoBranches_builtFrom asked, by decide, by decide⟩

end Bundle

end Workflow
