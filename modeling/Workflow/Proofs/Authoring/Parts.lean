import Workflow.Proofs.Authoring.Collecting

set_option autoImplicit false

namespace Workflow

namespace Condition

def row (condition : Condition) : ConditionRow :=
  Expr.row condition.operator condition.left condition.right condition.action

def sides (condition : Condition) : List Expr := [condition.left, condition.right]

end Condition

namespace Expr

def conditions : Expr → List Condition
  | .condition id operator left right action =>
    ⟨id, operator, left, right, action⟩ :: (left.conditions ++ right.conditions)
  | _ => []

variable {e : Expr} {c : Condition}

theorem mem_rows_iff {entry : Uid × ConditionRow} :
    entry ∈ e.rows ↔ ∃ c ∈ e.conditions, entry = (c.id, c.row) := by
  induction e with
  | absent | literal | output => simp [rows, lower, Lowered.row?, conditions]
  | condition id operator left right action ihleft ihright =>
    simp only [rows_condition, List.mem_append, ihleft, ihright, conditions, List.mem_cons,
      List.not_mem_nil, or_false]
    constructor
    · rintro ((⟨c, hc, heq⟩ | ⟨c, hc, heq⟩) | heq)
      · exact ⟨c, .inr (.inl hc), heq⟩
      · exact ⟨c, .inr (.inr hc), heq⟩
      · exact ⟨_, .inl rfl, heq⟩
    · rintro ⟨c, rfl | hc | hc, heq⟩
      · exact .inr heq
      · exact .inl (.inl ⟨c, hc, heq⟩)
      · exact .inl (.inr ⟨c, hc, heq⟩)

theorem id_mem_ids (h : c ∈ e.conditions) : c.id ∈ e.ids := by
  rw [← map_fst_rows]
  exact List.mem_map.mpr ⟨(c.id, c.row), mem_rows_iff.mpr ⟨c, h, rfl⟩, rfl⟩

theorem conditions_subset (h : c ∈ e.conditions) : c.expr.conditions ⊆ e.conditions := by
  induction e with
  | absent | literal | output => simp [conditions] at h
  | condition id operator left right action ihleft ihright =>
    rcases List.mem_cons.mp h with rfl | h
    · exact fun _ hd => hd
    · rcases List.mem_append.mp h with h | h
      · exact fun d hd => List.mem_cons_of_mem _ (List.mem_append_left _ (ihleft h hd))
      · exact fun d hd => List.mem_cons_of_mem _ (List.mem_append_right _ (ihright h hd))

theorem work_subset (h : c ∈ e.conditions) : c.work ⊆ e.work := by
  induction e with
  | absent | literal | output => simp [conditions] at h
  | condition id operator left right action ihleft ihright =>
    rcases List.mem_cons.mp h with rfl | h
    · exact fun _ hunit => hunit
    · rw [work_condition]
      rcases List.mem_append.mp h with h | h
      · exact fun unit hunit =>
          List.mem_append_left _ (List.mem_append_right _ (ihleft h hunit))
      · exact fun unit hunit => List.mem_append_right _ (ihright h hunit)

theorem mem_actions_or_outputs {unit : WorkUnit} (h : unit ∈ e.work) :
    unit ∈ e.actions ∨ ∃ reference ∈ e.outputs, reference.work = unit := by
  induction e with
  | absent | literal => simp [work, lower] at h
  | output reference =>
    obtain rfl : unit = reference.work := by simpa [work, lower, Lowered.work?] using h
    exact .inr ⟨reference, List.mem_singleton_self _, rfl⟩
  | condition id operator left right action ihleft ihright =>
    rw [work_condition, List.mem_append, List.mem_append] at h
    simp only [actions, outputs, List.mem_append]
    rcases h with (h | h) | h
    · exact .inl (.inl (.inl h))
    · rcases ihleft h with h | ⟨reference, h, heq⟩
      · exact .inl (.inl (.inr h))
      · exact .inr ⟨reference, .inl h, heq⟩
    · rcases ihright h with h | ⟨reference, h, heq⟩
      · exact .inl (.inr h)
      · exact .inr ⟨reference, .inr h, heq⟩

theorem exists_of_mem_actions {unit : WorkUnit} (h : unit ∈ e.actions) :
    ∃ c ∈ e.conditions, c.action = some unit := by
  induction e with
  | absent | literal | output => simp [actions] at h
  | condition id operator left right action ihleft ihright =>
    simp only [actions, List.mem_append] at h
    simp only [conditions, List.mem_cons, List.mem_append]
    rcases h with (h | h) | h
    · exact ⟨_, .inl rfl, Option.mem_toList.mp h⟩
    · obtain ⟨c, hc, heq⟩ := ihleft h
      exact ⟨c, .inr (.inl hc), heq⟩
    · obtain ⟨c, hc, heq⟩ := ihright h
      exact ⟨c, .inr (.inr hc), heq⟩

theorem eq_or_exists_of_mem_outputs {reference : OutputRef} (h : reference ∈ e.outputs) :
    e = .output reference ∨ ∃ c ∈ e.conditions, .output reference ∈ c.sides := by
  induction e with
  | absent | literal => simp [outputs] at h
  | output other => exact .inl (by simpa [outputs, eq_comm] using h)
  | condition id operator left right action ihleft ihright =>
    refine .inr ?_
    simp only [conditions, List.mem_cons, List.mem_append]
    rcases List.mem_append.mp h with h | h
    · rcases ihleft h with rfl | ⟨c, hc, hside⟩
      · exact ⟨_, .inl rfl, List.mem_cons_self⟩
      · exact ⟨c, .inr (.inl hc), hside⟩
    · rcases ihright h with rfl | ⟨c, hc, hside⟩
      · exact ⟨_, .inl rfl, List.mem_cons_of_mem _ List.mem_cons_self⟩
      · exact ⟨c, .inr (.inr hc), hside⟩

theorem eq_of_operand?_internal {owner : Uid} {key : String}
    (h : e.operand? = some (.internal owner key)) :
    (∃ reference, e = .output reference ∧ reference.owner = owner ∧ reference.key = key) ∨
      ∃ c ∈ e.conditions, c.id = owner ∧ Operand.conditionKey = key := by
  cases e with
  | absent | literal => simp [operand?] at h
  | output reference =>
    simp only [operand?, OutputRef.operand, Option.some.injEq, Operand.internal.injEq] at h
    exact .inl ⟨reference, rfl, h.1, h.2⟩
  | condition id operator left right action =>
    simp only [operand?, Option.some.injEq, Operand.internal.injEq] at h
    exact .inr ⟨_, List.mem_cons_self, h.1, h.2⟩

end Expr

namespace Condition

variable {condition : Condition} {side : Expr}

theorem mem_operands_row_iff {operand : Operand} :
    operand ∈ condition.row.operands ↔ ∃ side ∈ condition.sides, side.operand? = some operand := by
  simp [row, Expr.row, ConditionRow.operands, sides]

theorem conditions_subset_of_mem_sides (h : side ∈ condition.sides) :
    side.conditions ⊆ condition.expr.conditions := by
  intro c hc
  refine List.mem_cons_of_mem _ ?_
  rcases List.mem_cons.mp h with rfl | h
  · exact List.mem_append_left _ hc
  · rw [List.mem_singleton.mp h] at hc
    exact List.mem_append_right _ hc

theorem work_subset_of_mem_sides (h : side ∈ condition.sides) : side.work ⊆ condition.work := by
  intro unit hunit
  change unit ∈ condition.expr.work
  rw [expr, Expr.work_condition]
  rcases List.mem_cons.mp h with rfl | h
  · exact List.mem_append_left _ (List.mem_append_right _ hunit)
  · rw [List.mem_singleton.mp h] at hunit
    exact List.mem_append_right _ hunit

theorem mem_work_of_action {unit : WorkUnit} (h : condition.action = some unit) :
    unit ∈ condition.work := by
  change unit ∈ condition.expr.work
  rw [expr, Expr.work_condition, h]
  simp

end Condition

end Workflow
