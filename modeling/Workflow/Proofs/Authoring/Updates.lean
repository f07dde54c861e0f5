import Workflow.Proofs.Authoring.Branches
import Workflow.Proofs.Authoring.Pushing

/-!
Which version of an operation a workflow has after several pushes. Operations travel as copies with
all work that reads or runs them, and of all versions under an identifier the one that arrived last
is found, be it a copy or the operation that was pushed.
-/

set_option autoImplicit false

namespace Workflow

/-- The version of an operation that arrives with a bundle: itself, or a copy that it carries. -/
def Bundle.brings? (bundle : Bundle) (uid : Uid) : Option Operation :=
  if uid = bundle.id then some (.conditional bundle.operation) else bundle.operations.get? uid

def WorkUnit.brings? : WorkUnit → Uid → Option Operation
  | .step _, _ => none
  | .operation bundle, uid => bundle.brings? uid

namespace Bundle

variable {bundle : Bundle} {uid : Uid}

theorem get?_operations_addWork (unit : WorkUnit) :
    (bundle.addWork unit).operations.get? uid =
      (unit.brings? uid).or (bundle.operations.get? uid) := by
  cases unit with
  | step => rfl
  | operation nested =>
    simp only [addWork, Table.get?_insert, Table.get?_merge, WorkUnit.brings?, brings?]
    split <;> rfl

theorem get?_operations_foldl_addWork (units : List WorkUnit) :
    (units.foldl addWork bundle).operations.get? uid =
      (units.reverse.findSome? fun unit => unit.brings? uid).or (bundle.operations.get? uid) := by
  induction units generalizing bundle with
  | nil => rfl
  | cons unit units ih =>
    rw [List.foldl_cons, ih, get?_operations_addWork, List.reverse_cons, List.findSome?_append,
      List.findSome?_singleton, Option.or_assoc]

theorem operations_foldl_addCondition (conditions : List Condition) :
    (conditions.foldl addCondition bundle).operations =
      ((conditions.flatMap Condition.work).foldl addWork bundle).operations := by
  refine Table.ext_get? fun uid => ?_
  induction conditions generalizing bundle with
  | nil => rfl
  | cons condition conditions ih =>
    rw [List.foldl_cons, ih, List.flatMap_cons, List.foldl_append, get?_operations_foldl_addWork,
      get?_operations_foldl_addWork]
    rfl

theorem BuiltFrom.get?_operations {id : Uid} {conditions : List Condition}
    (h : bundle.BuiltFrom id conditions) :
    bundle.operations.get? uid =
      (conditions.flatMap Condition.work).reverse.findSome? fun unit => unit.brings? uid := by
  have hoperations : bundle.unconfigured.operations =
      (Bundle.ofConditions id conditions).operations := congrArg Bundle.operations h.unconfigured_eq
  change bundle.unconfigured.operations.get? uid = _
  rw [hoperations, Bundle.ofConditions, operations_foldl_addCondition,
    get?_operations_foldl_addWork]
  exact Option.or_none

end Bundle

namespace Flow

theorem get?_operations_pushAll (flow : Flow) (bundles : List Bundle) (uid : Uid) :
    (flow.pushAll bundles).script.operations.get? uid =
      (bundles.reverse.findSome? fun bundle => bundle.brings? uid).or
        (flow.script.operations.get? uid) := by
  let held : Bundle := ⟨(Bundle.empty "").operation, flow.script.steps, flow.script.operations⟩
  obtain ⟨hoperations, -⟩ := tables_pushAll bundles flow held rfl rfl
  rw [hoperations, Bundle.get?_operations_foldl_addWork, ← List.map_reverse, List.findSome?_map]
  rfl

/-- After the last push of an operation its entry is what was pushed, unless an operation that is
pushed later carries a copy, which then takes its place. Copies in operations that are built come
from the work of their conditions, and so do no harm where all these have the version that was
pushed. -/
theorem get?_pushAll_of_last {before after : List Bundle} {bundle : Bundle} (flow : Flow)
    (hlast : ∀ later ∈ after, later.id ≠ bundle.id) :
    let entry := (flow.pushAll (before ++ bundle :: after)).script.operations.get? bundle.id
    entry = (after.reverse.findSome? fun later => later.operations.get? bundle.id).or
        (some (.conditional bundle.operation)) ∧
      ((∀ later ∈ after, ∃ id conditions, later.BuiltFrom id conditions ∧
          ∀ condition ∈ conditions, ∀ unit ∈ condition.work, ∀ version,
            unit.brings? bundle.id = some version → version = .conditional bundle.operation) →
        entry = some (.conditional bundle.operation)) := by
  have hcarried : (after.reverse.findSome? fun later => later.brings? bundle.id) =
      after.reverse.findSome? fun later => later.operations.get? bundle.id := by
    rw [← List.head?_filterMap, ← List.head?_filterMap]
    refine congrArg List.head? (List.filterMap_congr fun later hlater => ?_)
    exact if_neg fun heq => hlast later (List.mem_reverse.mp hlater) heq.symm
  have hself : bundle.brings? bundle.id = some (.conditional bundle.operation) := if_pos rfl
  have hentry : (flow.pushAll (before ++ bundle :: after)).script.operations.get? bundle.id =
      (after.reverse.findSome? fun later => later.operations.get? bundle.id).or
        (some (.conditional bundle.operation)) := by
    rw [get?_operations_pushAll, List.reverse_append, List.reverse_cons, List.append_assoc,
      List.findSome?_append, hcarried, List.singleton_append, List.findSome?_cons, hself,
      Option.or_assoc, Option.some_or]
  refine ⟨hentry, fun hbuilt => ?_⟩
  rw [hentry]
  cases hfound : after.reverse.findSome? fun later => later.operations.get? bundle.id with
  | none => rfl
  | some version =>
    obtain ⟨later, hlater, hcopy⟩ := List.exists_of_findSome?_eq_some hfound
    obtain ⟨id, conditions, hmade, hversions⟩ := hbuilt later (List.mem_reverse.mp hlater)
    rw [hmade.get?_operations] at hcopy
    obtain ⟨unit, hunit, hbrings⟩ := List.exists_of_findSome?_eq_some hcopy
    obtain ⟨condition, hcondition, hwork⟩ := List.mem_flatMap.mp (List.mem_reverse.mp hunit)
    rw [hversions condition hcondition unit hwork version hbrings]
    rfl

def early : Bundle := .ofConditions "op_1" [.precomputed "cond_1" (.literal (.bool true))]

def follower (version : Bundle) : Bundle :=
  .ofConditions "op_2"
    [.precomputed "cond_2" (.output ⟨.operation version, "success", List.mem_cons_self⟩)]

theorem get?_pushAll_follower :
    (pushAll {} [early, early.withCritical false,
        follower (early.withCritical false)]).script.operations.get? "op_1" =
      some (.conditional (early.withCritical false).operation) := by
  obtain ⟨-, hkept⟩ := @get?_pushAll_of_last [early] [follower (early.withCritical false)]
    (early.withCritical false) {} (by decide)
  refine hkept fun later hlater => ?_
  obtain rfl := List.mem_singleton.mp hlater
  refine ⟨"op_2", _, .ofConditions _, fun condition hcondition unit hunit version hversion => ?_⟩
  obtain rfl := List.mem_singleton.mp hcondition
  obtain rfl := List.mem_singleton.mp hunit
  exact (Option.some.inj hversion).symm

/-- With the version from before the change, it undoes the change. -/
theorem follower_restores_early :
    (early.withCritical false).BuiltFrom "op_1"
        [.precomputed "cond_1" (.literal (.bool true))] ∧
      (follower early).id ≠ (early.withCritical false).id ∧
      (pushAll {} [early.withCritical false, follower early]).script.operations.get? "op_1" =
        some (.conditional early.operation) ∧
      early.operation ≠ (early.withCritical false).operation :=
  ⟨.withCritical false (.ofConditions _), by decide, by decide, by decide⟩

end Flow

end Workflow
