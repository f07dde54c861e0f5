import Workflow.Flow
import Workflow.Proofs.Authoring.Meaning

set_option autoImplicit false

namespace Workflow

namespace Expr

def rows (e : Expr) : List (Uid × ConditionRow) := e.lower.filterMap Lowered.row?

def work (e : Expr) : List WorkUnit := e.lower.filterMap Lowered.work?

def row (operator : Option Operator) (left right : Expr) (action : Option WorkUnit) :
    ConditionRow where
  operator
  left := left.operand?
  right := right.operand?
  work := action.map WorkUnit.id

variable {id : Uid} {operator : Option Operator} {left right : Expr} {action : Option WorkUnit}

@[simp] theorem rows_condition : (condition id operator left right action).rows =
    left.rows ++ right.rows ++ [(id, row operator left right action)] := by
  simp [rows, lower, row, Lowered.row?, List.filterMap_map]

@[simp] theorem work_condition :
    (condition id operator left right action).work = action.toList ++ left.work ++ right.work := by
  cases action <;> simp [work, lower, Lowered.work?]

theorem map_fst_rows (e : Expr) : e.rows.map Prod.fst = e.ids := by
  induction e with
  | absent | literal | output => rfl
  | condition id operator left right action ihleft ihright => simp [ids, ihleft, ihright]

theorem mem_work_of_mem_actions {unit : WorkUnit} {e : Expr} (h : unit ∈ e.actions) :
    unit ∈ e.work := by
  induction e with
  | absent | literal | output => simp [actions] at h
  | condition id operator left right action ihleft ihright =>
    simp only [actions, List.mem_append] at h
    rw [work_condition, List.mem_append, List.mem_append]
    rcases h with (h | h) | h
    · exact .inl (.inl h)
    · exact .inl (.inr (ihleft h))
    · exact .inr (ihright h)

end Expr

namespace Bundle

theorem operation_addWork (bundle : Bundle) (unit : WorkUnit) :
    (bundle.addWork unit).operation = bundle.operation := by
  cases unit <;> rfl

theorem steps_addWork (bundle : Bundle) (unit : WorkUnit) :
    (bundle.addWork unit).steps = bundle.steps.insertAll unit.copies := by
  cases unit <;> rfl

theorem operation_foldl_addWork (units : List WorkUnit) (bundle : Bundle) :
    (units.foldl addWork bundle).operation = bundle.operation := by
  induction units generalizing bundle with
  | nil => rfl
  | cons unit units ih => rw [List.foldl_cons, ih, operation_addWork]

theorem steps_foldl_addWork (units : List WorkUnit) (bundle : Bundle) :
    (units.foldl addWork bundle).steps =
      bundle.steps.insertAll (units.flatMap WorkUnit.copies) := by
  induction units generalizing bundle with
  | nil => rfl
  | cons unit units ih =>
    rw [List.foldl_cons, ih, steps_addWork, List.flatMap_cons, Table.insertAll_append]

theorem operation_ofConditions (id : Uid) (condition : Condition) :
    (ofConditions id [condition]).operation =
      { id, conditions := Table.ofList condition.expr.rows, order := [condition.id] } := by
  simp only [ofConditions, List.foldl_cons, List.foldl_nil, addCondition, operation_foldl_addWork]
  rfl

theorem steps_ofConditions (id : Uid) (condition : Condition) :
    (ofConditions id [condition]).steps = Table.ofList condition.copies := by
  simp only [ofConditions, List.foldl_cons, List.foldl_nil, addCondition, steps_foldl_addWork]
  rfl

/-- All work that came along stands under its own identifier, with the property of its kind. -/
structure Stocked (P : Operation → Prop) (Q : Step → Prop) (bundle : Bundle) : Prop where
  operations : bundle.operations.Keyed Operation.id P
  steps : bundle.steps.Keyed Step.id Q

def Holds (bundle : Bundle) : WorkUnit → Prop
  | .step step => bundle.steps.contains step.id
  | .operation nested => bundle.operations.contains nested.id

end Bundle

namespace WorkUnit

/-- The work has the property of its kind, and so has all that it brings along. -/
def Supplies (P : Operation → Prop) (Q : Step → Prop) : WorkUnit → Prop
  | .step s => Q s
  | .operation nested => P (.conditional nested.operation) ∧ nested.Stocked P Q

def Brings (unit other : WorkUnit) : Prop :=
  unit = other ∨ ∃ nested, unit = .operation nested ∧ nested.Holds other

end WorkUnit

namespace Bundle

variable {P : Operation → Prop} {Q : Step → Prop} {bundle : Bundle} {unit other : WorkUnit}
  {units : List WorkUnit}

theorem Stocked.addWork (h : bundle.Stocked P Q) (hunit : unit.Supplies P Q) :
    (bundle.addWork unit).Stocked P Q := by
  cases unit with
  | step step => exact ⟨h.operations, h.steps.insert rfl hunit⟩
  | operation nested =>
    obtain ⟨hoperation, hnested⟩ := hunit
    exact ⟨(h.operations.merge hnested.operations).insert rfl hoperation,
      h.steps.merge hnested.steps⟩

theorem Stocked.foldl_addWork (h : bundle.Stocked P Q)
    (hunits : ∀ unit ∈ units, unit.Supplies P Q) :
    (units.foldl Bundle.addWork bundle).Stocked P Q := by
  induction units generalizing bundle with
  | nil => exact h
  | cons unit units ih =>
    exact ih (h.addWork (hunits unit List.mem_cons_self)) fun u hu =>
      hunits u (List.mem_cons_of_mem _ hu)

theorem holds_addWork (h : bundle.Holds other ∨ unit.Brings other) :
    (bundle.addWork unit).Holds other := by
  rcases h with h | rfl | ⟨nested, rfl, h⟩
  · cases unit <;> cases other <;>
      simp_all [Holds, addWork, Table.contains_insert, Table.contains_merge]
  · cases unit <;> simp [Holds, addWork, Table.contains_insert, id]
  · cases other <;> simp_all [Holds, addWork, Table.contains_insert, Table.contains_merge]

theorem holds_foldl_addWork (h : bundle.Holds other ∨ ∃ unit ∈ units, unit.Brings other) :
    (units.foldl addWork bundle).Holds other := by
  induction units generalizing bundle with
  | nil => simpa using h
  | cons unit units ih =>
    refine ih ?_
    rcases h with h | ⟨found, hmem, h⟩
    · exact .inl (holds_addWork (.inl h))
    · rcases List.mem_cons.mp hmem with rfl | hmem
      · exact .inl (holds_addWork (.inr h))
      · exact .inr ⟨found, hmem, h⟩

end Bundle

namespace Condition

variable {condition : Condition}

theorem lookup_copies {step : Step} (h : .step step ∈ condition.work) :
    condition.copies.reverse.lookup step.id = some (condition.held step) := by
  have hmem : (step.id, step) ∈ condition.copies :=
    List.mem_flatMap.mpr ⟨.step step, h, List.mem_singleton_self _⟩
  have hfound : (condition.copies.reverse.lookup step.id).isSome := by
    rw [List.lookup_isSome_iff]
    exact ⟨_, List.mem_reverse.mpr hmem, by simp⟩
  obtain ⟨found, heq⟩ := Option.isSome_iff_exists.mp hfound
  rw [held, heq]
  rfl

theorem held_of_consistent (hconsistent : condition.Consistent) {step : Step}
    (h : .step step ∈ condition.work) : condition.held step = step := by
  have hmem : (step.id, step) ∈ condition.copies :=
    List.mem_flatMap.mpr ⟨.step step, h, List.mem_singleton_self _⟩
  obtain ⟨before, after, heq, -⟩ := List.lookup_eq_some_iff.mp (lookup_copies h)
  have hheld : (step.id, condition.held step) ∈ condition.copies := by
    rw [← List.mem_reverse, heq]
    simp
  exact congrArg Prod.snd (hconsistent _ hheld _ hmem rfl)

end Condition

end Workflow
