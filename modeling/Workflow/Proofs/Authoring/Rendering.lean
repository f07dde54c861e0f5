import Workflow.Proofs.Authoring.Branches
import Workflow.Proofs.Run.Inspection

/-!
What the tree of a script shows of a condition. The text is put together from rows that find each
other by identifier. Main statement: it is the condition as its author wrote it, with every nested
one in parentheses, unless an output is read from work that is named like a condition.
-/

set_option autoImplicit false

namespace Workflow

def comparisonText (operator : Option Operator) (left right : String) : String :=
  match operator with
  | none => left
  | some .not => "not " ++ left
  | some operator => left ++ " " ++ operator.symbol ++ " " ++ right

/-- An operand in full, a condition in one pair of parentheses. -/
def Expr.sourceText : Expr → String
  | .absent => "null"
  | .literal value => value.compact
  | .output reference => "$" ++ reference.owner ++ "." ++ reference.key
  | .condition _ operator left right _ =>
    "(" ++ comparisonText operator left.sourceText right.sourceText ++ ")"

namespace Condition

def sourceText (condition : Condition) : String :=
  comparisonText condition.operator condition.left.sourceText condition.right.sourceText

structure ShownBy (condition : Condition) (row : ConditionRow) : Prop where
  operator : row.operator = condition.operator
  left : row.left = condition.left.operand?
  right : row.right = condition.right.operand?

instance (condition : Condition) (row : ConditionRow) : Decidable (condition.ShownBy row) :=
  decidable_of_iff (row.operator = condition.operator ∧ row.left = condition.left.operand? ∧
      row.right = condition.right.operand?)
    ⟨fun ⟨hoperator, hleft, hright⟩ => ⟨hoperator, hleft, hright⟩,
      fun ⟨hoperator, hleft, hright⟩ => ⟨hoperator, hleft, hright⟩⟩

/-- If the two share an identifier, they compare the same. -/
def Agrees (c d : Condition) : Prop := c.id = d.id → c.ShownBy d.row

instance (c d : Condition) : Decidable (c.Agrees d) :=
  inferInstanceAs (Decidable (c.id = d.id → c.ShownBy d.row))

end Condition

namespace ConditionRow

variable {conditions : Table ConditionRow} {room : Nat} {row : ConditionRow}

def describeOperand (conditions : Table ConditionRow) : Nat → Option Operand → String
  | room + 1, some (.internal owner key) =>
    if WorkKind.of? owner = some .condition then
      match conditions.get? owner with
      | some nested => "(" ++ describe conditions room nested ++ ")"
      | none => "$" ++ owner
    else operandText (some (.internal owner key))
  | _, operand => operandText operand

theorem textWith_eq (showOperand : Option Operand → String) : row.textWith showOperand =
    comparisonText row.operator (showOperand row.left) (showOperand row.right) := by
  unfold textWith
  cases row.operator with
  | none => rfl
  | some operator => cases operator <;> rfl

theorem describe_eq : row.describe conditions room = comparisonText row.operator
    (describeOperand conditions room row.left) (describeOperand conditions room row.right) := by
  cases room with
  | zero => exact textWith_eq _
  | succ room =>
    rw [describe, textWith_eq]
    obtain ⟨operator, left, right, work⟩ := row
    rcases left with _ | ⟨_ | _⟩ <;> rcases right with _ | ⟨_ | _⟩ <;> rfl

end ConditionRow

namespace Expr

variable {conditions : Table ConditionRow}

theorem describeOperand_eq {e : Expr} {room : Nat} (hroom : e.levels ≤ room)
    (hkinds : ∀ c ∈ e.conditions, WorkKind.of? c.id = some .condition)
    (houtputs : ∀ reference ∈ e.outputs, WorkKind.of? reference.owner ≠ some .condition)
    (hrows : ∀ c ∈ e.conditions, ∃ row, conditions.get? c.id = some row ∧ c.ShownBy row) :
    ConditionRow.describeOperand conditions room e.operand? = e.sourceText := by
  induction e generalizing room with
  | absent | literal => cases room <;> rfl
  | output reference =>
    have howner := houtputs reference (List.mem_singleton_self _)
    cases room with
    | zero => rfl
    | succ room => exact if_neg howner
  | condition id operator left right action ihleft ihright =>
    let c : Condition := ⟨id, operator, left, right, action⟩
    simp only [levels] at hroom
    obtain ⟨inner, rfl⟩ : ∃ inner, room = inner + 1 := ⟨room - 1, by omega⟩
    simp only [Expr.conditions, List.forall_mem_cons, List.forall_mem_append] at hkinds hrows
    simp only [outputs, List.forall_mem_append] at houtputs
    obtain ⟨row, hget, hshown⟩ := hrows.1
    have hinner : left.levels ≤ inner ∧ right.levels ≤ inner := by omega
    have hleft := ihleft hinner.1 hkinds.2.1 houtputs.1 hrows.2.1
    have hright := ihright hinner.2 hkinds.2.2 houtputs.2 hrows.2.2
    have hnested : ConditionRow.describeOperand conditions (inner + 1)
        (condition id operator left right action).operand? =
          "(" ++ row.describe conditions inner ++ ")" := by
      simp only [operand?, ConditionRow.describeOperand]
      rw [if_pos hkinds.1, hget]
    rw [hnested, ConditionRow.describe_eq, hshown.operator, hshown.left, hshown.right, hleft,
      hright]
    rfl

end Expr

namespace Condition

variable {condition c d : Condition}

theorem ShownBy.isElse_eq {row : ConditionRow} (h : condition.ShownBy row) :
    row.isElse = condition.isElse := by
  rw [ConditionRow.isElse, h.operator, h.left]
  rcases condition with ⟨_, _ | _, _ | _, _, _⟩ <;> rfl

theorem levels_le_nesting {side : Expr} (h : side ∈ condition.sides) :
    side.levels ≤ condition.nesting := by
  rcases List.mem_cons.mp h with rfl | h
  · exact Nat.le_max_left _ _
  · rw [List.mem_singleton.mp h]
    exact Nat.le_max_right _ _

theorem outputs_subset_of_mem_sides {side : Expr} (h : side ∈ condition.sides) :
    side.outputs ⊆ condition.expr.outputs := by
  rcases List.mem_cons.mp h with rfl | h
  · exact List.subset_append_left _ _
  · rw [List.mem_singleton.mp h]
    exact List.subset_append_right _ _

theorem Labelled.agrees (h : condition.Labelled) (hc : c ∈ condition.expr.conditions)
    (hd : d ∈ condition.expr.conditions) : c.Agrees d := by
  intro hid
  have hnodup : (condition.expr.rows.map Prod.fst).Nodup := by
    rw [Expr.map_fst_rows]
    exact h.nodup
  have hentry : (c.id, c.row) = (d.id, d.row) :=
    List.inj_on_of_nodup_map hnodup (Expr.mem_rows_iff.mpr ⟨c, hc, rfl⟩)
      (Expr.mem_rows_iff.mpr ⟨d, hd, rfl⟩) hid
  rw [← (Prod.mk.inj hentry).2]
  exact ⟨rfl, rfl, rfl⟩

end Condition

variable {id uid : Uid} {before after : List Condition} {condition : Condition} {bundle : Bundle}

/-- The row that is found for a condition has its comparison, if later conditions under the same
identifier have it. -/
theorem Bundle.BuiltFrom.exists_shownBy (h : bundle.BuiltFrom id (before ++ condition :: after))
    (hlabelled : condition.Labelled) {c : Condition} (hc : c ∈ condition.expr.conditions)
    (hafter : ∀ later ∈ after, ∀ d ∈ later.expr.conditions, c.Agrees d) :
    ∃ row, bundle.operation.conditions.get? c.id = some row ∧ c.ShownBy row := by
  have hsome : (((condition :: after).flatMap Condition.rows).reverse.lookup c.id).isSome := by
    have hentry : (c.id, c.row) ∈ condition.rows := Expr.mem_rows_iff.mpr ⟨c, hc, rfl⟩
    rw [List.lookup_isSome_iff]
    refine ⟨(c.id, c.row), List.mem_reverse.mpr ?_, by simp⟩
    exact List.mem_flatMap.mpr ⟨condition, List.mem_cons_self, hentry⟩
  obtain ⟨row, hfound⟩ := Option.isSome_iff_exists.mp hsome
  obtain ⟨later, hlater, d, hd, hid, rfl⟩ := Condition.exists_of_lookup_rows hfound
  have hagrees : c.Agrees d := by
    rcases List.mem_cons.mp hlater with rfl | hlater
    · exact hlabelled.agrees hc hd
    · exact hafter later hlater d hd
  refine ⟨d.row, ?_, hagrees hid.symm⟩
  rw [h.get?_conditions, List.flatMap_append, List.reverse_append, List.lookup_append, hfound]
  rfl

namespace Script

theorem mem_operationLines {script : Script} {operation : Conditional} {row : ConditionRow}
    {i : Nat} {listed : Uid} (hget : script.operations.get? uid = some (.conditional operation))
    (hlisted : operation.order[i]? = some listed)
    (hrow : operation.conditions.get? listed = some row) (helse : row.isElse = false)
    (room : Nat) (margin : String) (last : Bool) : ∃ lastRow,
      below margin last ++ branch lastRow ++
          ((if i = 0 then "if " else "elif ") ++ row.describe operation.conditions room) ∈
        script.operationLines (room + 1) uid margin last := by
  have hindexed : (listed, i) ∈ operation.order.zipIdx := List.mem_zipIdx_iff_getElem?.mpr hlisted
  obtain ⟨lastRow, hmarked⟩ := exists_mem_markLast hindexed
  refine ⟨lastRow, ?_⟩
  simp only [operationLines, hget]
  refine List.mem_cons_of_mem _ (List.mem_flatMap.mpr ⟨_, hmarked, ?_⟩)
  simp [conditionLines, hrow, helse]

/-- Where an operation stands in the tree with room for the conditions of one that it lists, it has
a line with that condition as it is written. -/
theorem displays_sourceText {script : Script} {depth : Nat}
    (hbuilt : bundle.BuiltFrom id (before ++ condition :: after))
    (hget : script.operations.get? uid = some (.conditional bundle.operation))
    (hnests : script.Nests depth uid) (hdepth : depth + condition.nesting ≤ maxDisplayDepth)
    (helse : condition.isElse = false) (hlabelled : condition.Labelled)
    (houtputs : ∀ reference ∈ condition.expr.outputs,
      WorkKind.of? reference.owner ≠ some .condition)
    (hafter : ∀ c ∈ condition.expr.conditions, ∀ later ∈ after,
      ∀ d ∈ later.expr.conditions, c.Agrees d) :
    ∃ row, bundle.operation.conditions.get? condition.id = some row ∧
      row.describe bundle.operation.conditions (maxDisplayDepth - depth) = condition.sourceText ∧
      ∃ margin last, Margin margin ∧ margin ++ branch last ++
          ((if before = [] then "if " else "elif ") ++ condition.sourceText) ∈ script.lines := by
  have hrows : ∀ c ∈ condition.expr.conditions, ∃ row,
      bundle.operation.conditions.get? c.id = some row ∧ c.ShownBy row :=
    fun c hc => hbuilt.exists_shownBy hlabelled hc (hafter c hc)
  obtain ⟨row, hrow, hshown⟩ := hrows condition List.mem_cons_self
  have hsides : ∀ side ∈ condition.sides, ConditionRow.describeOperand bundle.operation.conditions
      (maxDisplayDepth - depth) side.operand? = side.sourceText := by
    intro side hside
    have hsubset := Condition.conditions_subset_of_mem_sides hside
    have hlevels : side.levels ≤ condition.nesting := Condition.levels_le_nesting hside
    exact Expr.describeOperand_eq (by omega)
      (fun c hc => hlabelled.kinds c.id (Expr.id_mem_ids (hsubset hc)))
      (fun reference hmem => houtputs reference (Condition.outputs_subset_of_mem_sides hside hmem))
      (fun c hc => hrows c (hsubset hc))
  have htext : row.describe bundle.operation.conditions (maxDisplayDepth - depth) =
      condition.sourceText := by
    rw [ConditionRow.describe_eq, hshown.operator, hshown.left, hshown.right,
      hsides _ List.mem_cons_self, hsides _ (List.mem_cons_of_mem _ List.mem_cons_self)]
    rfl
  refine ⟨row, hrow, htext, ?_⟩
  have hlisted : bundle.operation.order[before.length]? = some condition.id := by
    rw [hbuilt.order_eq]
    simp
  obtain ⟨margin, last, hmargin, hsubset⟩ := hnests.exists_lines_subset (by omega)
  obtain ⟨lastRow, hline⟩ := mem_operationLines hget hlisted hrow (hshown.isElse_eq.trans helse)
    (maxDisplayDepth - depth) margin last
  rw [htext] at hline
  refine ⟨_, lastRow, hmargin.column last, ?_⟩
  simpa only [List.length_eq_zero_iff] using hsubset hline

end Script

namespace Bundle

def bounded : Condition := .compare "cond_4" (.literal (.ofInt 1)) .less .absent

def layered : Condition :=
  .compare "cond_3" (Condition.negation "cond_2" bounded.expr).expr .or
    (.output ⟨noted "step_1", "result", by decide⟩)

def layers : Bundle :=
  .ofConditions "op_2" [asked, layered, bounded.withAction (noted "step_2")]

def around : Bundle :=
  .ofConditions "op_1" [(Condition.precomputed "cond_5" (.literal .null)).withAction
    (.operation layers)]

theorem around_displays_sourceText :
    let script := (Flow.push {} around).script
    layered.sourceText = "(not (1 < null)) || $step_1.output.result" ∧
      layered.nesting = 2 ∧ script.Nests 1 "op_2" ∧
      ∃ margin last, Script.Margin margin ∧
        margin ++ Script.branch last ++ ("elif " ++ layered.sourceText) ∈ script.lines := by
  intro script
  have hrow : script.HasRow "op_1" around.operation "cond_5"
      ((Condition.precomputed "cond_5" (.literal .null)).withAction (.operation layers)).row :=
    ⟨rfl, rfl⟩
  have hnests : script.Nests 1 "op_2" :=
    .work (.listed List.mem_cons_self) hrow List.mem_cons_self rfl (by decide)
  have hbuilt : layers.BuiltFrom "op_2"
      ([asked] ++ layered :: [bounded.withAction (noted "step_2")]) := .ofConditions _
  obtain ⟨_, _, _, hline⟩ := Script.displays_sourceText hbuilt rfl hnests (by decide) rfl
    ⟨by decide, by decide⟩ (by decide) (by decide)
  exact ⟨by decide, by decide, hnests, hline⟩

/-- The output of a step that is named like a condition. -/
def misread : Condition :=
  .precomputed "cond_1" (.output ⟨noted "cond_9", "result", by decide⟩)

def changed : Condition := { bounded with operator := some .greater }

/-- Where an output is read from work that is named like a condition, the field is not shown. A
condition that is changed and asked again is shown as it is asked the last time. -/
theorem displays_not_sourceText :
    let reading := (Flow.push {} (.ofConditions "op_1" [misread])).script
    let asking := (Flow.push {} (.ofConditions "op_1" [bounded, changed])).script
    (misread.Labelled ∧ misread.isElse = false ∧ misread.nesting = 0 ∧
      reading.Nests 0 "op_1" ∧
      (∀ reference ∈ misread.expr.outputs, reference.owner ∉ misread.expr.ids) ∧
      misread.sourceText = "$cond_9.output.result" ∧
      reading.lines = ["DemoScript (1 operations, 1 steps)",
        "└── op_1 (conditional, critical)", "    └── if $cond_9"]) ∧
    bounded.Labelled ∧ bounded.isElse = false ∧ bounded.nesting = 0 ∧
      asking.Nests 0 "op_1" ∧ bounded.expr.outputs = [] ∧
      bounded.sourceText = "1 < null" ∧
      asking.lines = ["DemoScript (1 operations, 0 steps)",
        "└── op_1 (conditional, critical)", "    ├── if 1 > null", "    └── elif 1 > null"] := by
  intro reading asking
  refine ⟨⟨⟨by decide, by decide⟩, rfl, rfl, .listed List.mem_cons_self, by decide, by decide,
    by decide⟩, ⟨by decide, by decide⟩, rfl, rfl, .listed List.mem_cons_self, rfl, by decide,
    by decide⟩

end Bundle

end Workflow
