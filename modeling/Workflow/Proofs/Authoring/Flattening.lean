import Workflow.Proofs.Authoring.Parts

/-!
The order in which a condition tree is flattened. Main statement: there is one row for each
condition, in post-order; whatever a row refers to comes before it, and all work that comes along is
referred to by a row behind it.
-/

set_option autoImplicit false

namespace Workflow

namespace Condition

def entry (condition : Condition) : Uid × ConditionRow := (condition.id, condition.row)

/-- The condition runs the work or reads an output of it, those that stand in it apart. -/
def Refers (condition : Condition) (unit : WorkUnit) : Prop :=
  condition.action = some unit ∨
    ∃ reference, .output reference ∈ condition.sides ∧ reference.work = unit

def contents (condition : Condition) : List Lowered :=
  condition.action.toList.map Lowered.work ++ condition.left.lower ++ condition.right.lower

theorem lower_eq (condition : Condition) :
    condition.lower = condition.contents ++ [.row condition.id condition.row] := rfl

variable {condition : Condition}

theorem lower_subset_contents {side : Expr} (h : side ∈ condition.sides) :
    side.lower ⊆ condition.contents := by
  intro piece hpiece
  rcases List.mem_cons.mp h with rfl | h
  · exact List.mem_append_left _ (List.mem_append_right _ hpiece)
  · rw [List.mem_singleton.mp h] at hpiece
    exact List.mem_append_right _ hpiece

theorem Refers.mem_contents {unit : WorkUnit} (h : condition.Refers unit) :
    .work unit ∈ condition.contents := by
  rcases h with haction | ⟨reference, hside, rfl⟩
  · simp [contents, haction]
  · exact lower_subset_contents hside (List.mem_singleton_self _)

theorem row_mem_contents {nested : Condition} (h : nested.expr ∈ condition.sides) :
    .row nested.id nested.row ∈ condition.contents := by
  refine lower_subset_contents h ?_
  change _ ∈ nested.lower
  simp [lower_eq]

end Condition

/-- A piece of flattened conditions, given what comes before and after it. -/
inductive Lowered.Placed (conditions : List Condition) (before after : List Lowered) :
    Lowered → Prop
  /-- The row has behind it all work that it refers to, and the rows of the nested conditions. -/
  | row {c : Condition} : c ∈ conditions → (∀ unit, c.Refers unit → .work unit ∈ before) →
      (∀ nested : Condition, nested.expr ∈ c.sides → .row nested.id nested.row ∈ before) →
      Placed conditions before after (.row c.id c.row)
  /-- The work has before it the row of a condition that refers to it. -/
  | work {c : Condition} {unit : WorkUnit} : c ∈ conditions → c.Refers unit →
      .row c.id c.row ∈ after → Placed conditions before after (.work unit)

theorem Lowered.Placed.mono {conditions others : List Condition}
    {before before' after after' : List Lowered} {piece : Lowered}
    (h : piece.Placed conditions before after) (hconditions : conditions ⊆ others)
    (hbefore : before ⊆ before') (hafter : after ⊆ after') :
    piece.Placed others before' after' := by
  cases h with
  | row hmem hwork hnested =>
    exact .row (hconditions hmem) (fun unit href => hbefore (hwork unit href))
      fun nested hside => hbefore (hnested nested hside)
  | work hmem href hrow => exact .work (hconditions hmem) href (hafter hrow)

theorem split_append {α : Type} {first second before after : List α} {a : α}
    (h : first ++ second = before ++ a :: after) :
    (∃ middle, first = before ++ a :: middle ∧ after = middle ++ second) ∨
      ∃ middle, before = first ++ middle ∧ second = middle ++ a :: after := by
  rcases List.append_eq_append_iff.mp h with ⟨middle, hbefore, hsecond⟩ | ⟨middle, hfirst, hafter⟩
  · exact .inr ⟨middle, hbefore, hsecond⟩
  · cases middle with
    | nil => exact .inr ⟨[], by simpa using hfirst.symm, by simpa using hafter.symm⟩
    | cons b middle =>
      obtain ⟨rfl, rfl⟩ := List.cons.inj hafter
      exact .inl ⟨middle, hfirst, rfl⟩

namespace Expr

/-- The conditions of a tree, each behind those on its left and those on its right side. -/
def postorder : Expr → List Condition
  | .condition id operator left right action =>
    left.postorder ++ right.postorder ++ [⟨id, operator, left, right, action⟩]
  | _ => []

theorem rows_eq_map_postorder (e : Expr) : e.rows = e.postorder.map Condition.entry := by
  induction e with
  | absent | literal | output => rfl
  | condition id operator left right action ihleft ihright =>
    rw [rows_condition, postorder, List.map_append, List.map_append, ihleft, ihright]
    rfl

theorem perm_work (e : Expr) : (e.work.map WorkUnit.id).Perm
    (e.rows.filterMap (fun entry => entry.2.work) ++ e.outputs.map OutputRef.owner) := by
  induction e with
  | absent | literal | output => exact .refl _
  | condition id operator left right action ihleft ihright =>
    rw [List.perm_iff_count] at ihleft ihright ⊢
    intro uid
    have hleft := ihleft uid
    have hright := ihright uid
    rw [List.count_append] at hleft hright
    cases action <;>
      simp only [work_condition, rows_condition, outputs, row, List.map_append,
        List.filterMap_append, List.count_append, Option.toList, Option.map, List.map_cons, List.map_nil,
        List.filterMap_cons, List.filterMap_nil, List.count_nil, hleft, hright] <;>
      omega

variable {e left right : Expr} {before after : List Lowered} {piece : Lowered}

/-- Every piece has its place. Work that stands alone is not referred to by a row yet. -/
theorem alone_or_placed (h : e.lower = before ++ piece :: after) :
    (∃ reference, e = .output reference ∧ piece = .work reference.work) ∨
      piece.Placed e.conditions before after := by
  induction e generalizing before after with
  | absent | literal => simp [lower] at h
  | output reference =>
    have hpiece : piece ∈ (Expr.output reference).lower := by simp [h]
    exact .inl ⟨reference, rfl, List.mem_singleton.mp hpiece⟩
  | condition id operator left right action ihleft ihright =>
    right
    let c : Condition := ⟨id, operator, left, right, action⟩
    have hc : c ∈ c.expr.conditions := List.mem_cons_self
    have hleft : left ∈ c.sides := List.mem_cons_self
    have hright : right ∈ c.sides := List.mem_cons_of_mem _ List.mem_cons_self
    change c.contents ++ [.row c.id c.row] = before ++ piece :: after at h
    rcases split_append h with ⟨front, hfront, rfl⟩ | ⟨front, rfl, hlast⟩
    · have hrow : .row c.id c.row ∈ front ++ [.row c.id c.row] := by simp
      rcases split_append hfront with ⟨rest, hrest, rfl⟩ | ⟨rest, rfl, hin⟩
      · rcases split_append hrest with ⟨others, hothers, rfl⟩ | ⟨others, rfl, hin⟩
        · have hpiece : piece ∈ c.action.toList.map Lowered.work := by
            rw [hothers]
            exact List.mem_append_right _ List.mem_cons_self
          obtain ⟨unit, hunit, rfl⟩ := List.mem_map.mp hpiece
          exact .work hc (.inl (Option.mem_toList.mp hunit)) hrow
        · rcases ihleft hin with ⟨reference, rfl, rfl⟩ | hplaced
          · exact .work hc (.inr ⟨reference, hleft, rfl⟩) hrow
          · exact hplaced.mono (Condition.conditions_subset_of_mem_sides hleft)
              (List.subset_append_right _ _) (by simp)
      · rcases ihright hin with ⟨reference, rfl, rfl⟩ | hplaced
        · exact .work hc (.inr ⟨reference, hright, rfl⟩) hrow
        · exact hplaced.mono (Condition.conditions_subset_of_mem_sides hright)
            (List.subset_append_right _ _) (List.subset_append_left _ _)
    · -- The row of the condition itself is the last piece, behind all that stands in it.
      rcases List.append_eq_singleton_iff.mp hlast.symm with ⟨rfl, hrow⟩ | ⟨-, hnil⟩
      · obtain ⟨rfl, rfl⟩ := List.cons.inj hrow
        rw [List.append_nil]
        exact .row hc (fun _ href => href.mem_contents) fun _ hside =>
          Condition.row_mem_contents hside
      · cases hnil

end Expr

/-- Flattening gives one row for each condition of a tree: those of its left side, those of its right
side, and then the condition itself, so that the root comes last. A condition that stands as an
operand is replaced by a reference to its outcome. The work that comes along is what the rows run
and what outputs are read from. Every row stands behind the work that it refers to and the rows of
the conditions that stand in it, and all work stands before the row of a condition that refers to it.
-/
theorem Condition.rows_and_pieces (condition : Condition) :
    condition.rows = condition.expr.postorder.map Condition.entry ∧
      condition.rows.getLast? = some condition.entry ∧
      (∀ nested : Condition,
        nested.expr.operand? = some (.internal nested.id Operand.conditionKey)) ∧
      (condition.work.map WorkUnit.id).Perm
        (condition.rows.filterMap (fun entry => entry.2.work) ++
          condition.expr.outputs.map OutputRef.owner) ∧
      ∀ before piece after, condition.lower = before ++ piece :: after →
        piece.Placed condition.expr.conditions before after := by
  have hrows : condition.rows = condition.expr.postorder.map Condition.entry :=
    condition.expr.rows_eq_map_postorder
  refine ⟨hrows, ?_, fun _ => rfl, condition.expr.perm_work, fun before piece after h => ?_⟩
  · rw [hrows, Condition.expr, Expr.postorder, List.map_append]
    simp
  · rcases Expr.alone_or_placed (e := condition.expr) h with ⟨_, heq, -⟩ | hplaced
    · cases heq
    · exact hplaced

def Condition.forked : Condition where
  id := "cond_3"
  operator := some .and
  left := .condition "cond_1" none (.literal (.bool true)) .absent
    (some (.step ⟨"step_1", .native, .native .null, none, [], 0⟩))
  right := .condition "cond_2" (some .equal)
    (.output ⟨.step ⟨"step_1", .native, .native .null, none, [], 0⟩, "result", by decide⟩)
    (.literal (.string "success")) none
  action := some (.step ⟨"step_2", .native, .native .null, none, [], 0⟩)

theorem Condition.forked_rows_and_pieces :
    let pieces := Condition.forked.lower
    Condition.forked.rows.map Prod.fst = ["cond_1", "cond_2", "cond_3"] ∧
      Condition.forked.work.map WorkUnit.id = ["step_2", "step_1", "step_1"] ∧
      (Condition.forked.work.map WorkUnit.id).Perm
        (["step_1", "step_2"] ++ Condition.forked.expr.outputs.map OutputRef.owner) ∧
      ∃ row, pieces = pieces.take 4 ++ .row "cond_2" row :: pieces.drop 5 ∧
        (Lowered.row "cond_2" row).Placed Condition.forked.expr.conditions (pieces.take 4)
          (pieces.drop 5) := by
  obtain ⟨hrows, -, -, hwork, hplaced⟩ := Condition.forked.rows_and_pieces
  refine ⟨by rw [hrows]; rfl, rfl, hwork, _, rfl, hplaced _ _ _ rfl⟩

end Workflow
