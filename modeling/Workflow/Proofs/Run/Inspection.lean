import Mathlib.Data.Fintype.EquivFin
import Workflow.Proofs.Run.Dependencies
import Workflow.Script.Display

/-!
What the tree of a script shows of its runs. The tree has the work of the conditions that operations
list; a condition that is only read by others is written out without its work. Main statement: if
such conditions have none, every step that is called stands in the tree.
-/

set_option autoImplicit false

namespace Workflow

namespace Script

/-- What stands in front of the branches of the tree. -/
inductive Margin : String → Prop
  | nil : Margin ""
  | blank {margin : String} : Margin margin → Margin (margin ++ "    ")
  | bar {margin : String} : Margin margin → Margin (margin ++ "│   ")

/-- The tree has a line of the step, with its kind and its description if it has one. -/
def Displays (script : Script) (step : Step) : Prop :=
  ∃ margin, Margin margin ∧
    margin ++ "└── " ++ ("Step " ++ step.id ++ " [" ++ step.kind.name ++ "]" ++
      match step.description with
      | some description => " \"" ++ description ++ "\""
      | none => "") ∈ script.lines

/-- The operation stands in the tree, with so many others around it. -/
inductive Nests (script : Script) : Nat → Uid → Prop
  | listed {uid : Uid} : uid ∈ script.order.uids → Nests script 0 uid
  | work {depth : Nat} {uid condition work : Uid} {operation : Conditional} {row : ConditionRow} :
      Nests script depth uid → script.HasRow uid operation condition row →
      condition ∈ operation.order → row.work = some work → WorkKind.of? work = some .operation →
      Nests script (depth + 1) work

/-- A condition with work that others read is listed too. -/
def ListsWork (script : Script) : Prop :=
  ∀ uid operation reader condition row nested, script.HasRow uid operation reader row →
    .internal condition Operand.conditionKey ∈ row.operands →
    script.HasRow uid operation condition nested → nested.work ≠ none →
    condition ∈ operation.order

variable {script : Script} {uid condition work : Uid} {operation : Conditional}
  {row : ConditionRow}

theorem Margin.column {margin : String} (h : Margin margin) (isLast : Bool) :
    Margin (Script.below margin isLast) := by
  cases isLast with
  | true => exact h.blank
  | false => exact h.bar

theorem exists_mem_markLast {α : Type} {a : α} {as : List α} (h : a ∈ as) :
    ∃ last, (a, last) ∈ markLast as := by
  induction as with
  | nil => cases h
  | cons b as ih =>
    rcases List.mem_cons.mp h with rfl | h
    · exact ⟨as.isEmpty, List.mem_cons_self⟩
    · obtain ⟨last, hmem⟩ := ih h
      exact ⟨last, List.mem_cons_of_mem _ hmem⟩

theorem exists_workLines_subset (hrow : script.HasRow uid operation condition row)
    (hlisted : condition ∈ operation.order) (hwork : row.work = some work) (room : Nat)
    {margin : String} (hmargin : Margin margin) (last : Bool) :
    ∃ inner, Margin inner ∧
      script.workLines (fun uid margin => script.operationLines room uid margin true) work inner ⊆
        script.operationLines (room + 1) uid margin last := by
  obtain ⟨i, hi⟩ := List.getElem?_of_mem hlisted
  have hindexed : (condition, i) ∈ operation.order.zipIdx := List.mem_zipIdx_iff_getElem?.mpr hi
  obtain ⟨lastRow, hmarked⟩ := exists_mem_markLast hindexed
  refine ⟨_, (hmargin.column last).column lastRow, fun line hline => ?_⟩
  simp only [operationLines, hrow.get_operation]
  refine List.mem_cons_of_mem _ (List.mem_flatMap.mpr ⟨_, hmarked, ?_⟩)
  simp only [conditionLines, hrow.get_row, hwork]
  exact List.mem_cons_of_mem _ hline

theorem Nests.exists_lines_subset {depth : Nat} (h : script.Nests depth uid) :
    depth ≤ maxDisplayDepth → ∃ margin last, Margin margin ∧
      script.operationLines (maxDisplayDepth - depth + 1) uid margin last ⊆ script.lines := by
  induction h with
  | listed hlisted =>
    intro _
    obtain ⟨last, hmarked⟩ := exists_mem_markLast hlisted
    refine ⟨"", last, .nil, fun line hline => List.mem_cons_of_mem _ ?_⟩
    exact List.mem_flatMap.mpr ⟨_, hmarked, hline⟩
  | @work depth uid condition work operation row _ hrow hlisted hwork hkind ih =>
    intro hdepth
    obtain ⟨margin, last, hmargin, hsubset⟩ := ih (by omega)
    have hroom : maxDisplayDepth - depth = maxDisplayDepth - (depth + 1) + 1 := by omega
    obtain ⟨inner, hbelow, hinner⟩ :=
      exists_workLines_subset hrow hlisted hwork (maxDisplayDepth - depth) hmargin last
    refine ⟨inner, true, hbelow, fun line hline => hsubset (hinner ?_)⟩
    rwa [workLines, if_pos hkind, hroom]

theorem Nests.displays {depth : Nat} {step : Step} (h : script.Nests depth uid)
    (hdepth : depth ≤ maxDisplayDepth) (hrow : script.HasRow uid operation condition row)
    (hlisted : condition ∈ operation.order) (hwork : row.work = some step.id)
    (hkind : WorkKind.of? step.id ≠ some .operation) (hasks : script.Asks step) :
    script.Displays step := by
  obtain ⟨margin, last, hmargin, hsubset⟩ := h.exists_lines_subset hdepth
  obtain ⟨inner, hbelow, hinner⟩ := exists_workLines_subset hrow hlisted hwork _ hmargin last
  obtain ⟨found, hfound, hstep⟩ := hasks
  have hline : stepLine step.id step = stepLine step.id found := by rw [hstep]; rfl
  refine ⟨inner, hbelow, hsubset (hinner ?_)⟩
  change inner ++ branch true ++ stepLine step.id step ∈ _
  rw [workLines, if_neg hkind, hfound, hline]
  exact List.mem_cons_self

/-- What a course comes to is in the tree, as far as it has work. -/
def Shows (script : Script) : Stage → Prop
  | .order rest _ => rest ⊆ script.order.uids
  | .operation uid _ _ => ∃ depth, script.Nests depth uid
  | .conditions uid _ _ rest _ _ => (∃ depth, script.Nests depth uid) ∧
      ∀ operation, script.operations.get? uid = some (.conditional operation) →
        rest ⊆ operation.order
  | .condition uid condition _ _ | .verdict uid condition _ _ _ _ =>
      (∃ depth, script.Nests depth uid) ∧
        ∀ operation row, script.HasRow uid operation condition row → row.work ≠ none →
          condition ∈ operation.order
  | .step uid _ _ => WorkKind.of? uid ≠ some .operation ∧ ∃ depth owner operation condition row,
      script.Nests depth owner ∧ script.HasRow owner operation condition row ∧
        condition ∈ operation.order ∧ row.work = some uid
  | _ => True

end Script

theorem Detour.Passes.shows {detour : Detour} (hlists : detour.script.ListsWork) {stage : Stage}
    (h : detour.Passes stage) : detour.script.Shows stage := by
  induction h with
  | order => exact List.Subset.refl _
  | operation _ ih => exact ⟨0, .listed (ih List.mem_cons_self)⟩
  | next _ _ ih => exact List.Subset.trans (List.subset_cons_self _ _) ih
  | conditions _ hoperation ih =>
    refine ⟨ih, fun found hfound => ?_⟩
    cases hoperation.symm.trans hfound
    exact List.Subset.refl _
  | condition _ _ ih =>
    exact ⟨ih.1, fun found row hrow _ => ih.2 found hrow.get_operation List.mem_cons_self⟩
  | left _ hreader hleft _ _ ih =>
    refine ⟨ih.1, fun found row hrow hwork => ?_⟩
    cases hrow.operation_eq hreader.get_operation
    exact hlists _ _ _ _ _ _ hreader (ConditionRow.mem_operands_of_left hleft) hrow hwork
  | right _ hreader _ _ hright _ _ ih =>
    refine ⟨ih.1, fun found row hrow hwork => ?_⟩
    cases hrow.operation_eq hreader.get_operation
    exact hlists _ _ _ _ _ _ hreader (ConditionRow.mem_operands_of_right hright) hrow hwork
  | settled _ _ _ _ _ ih | compared _ _ _ _ _ _ ih => exact ih
  | nested _ hrow hwork hkind _ ih =>
    obtain ⟨⟨depth, hnests⟩, hlisted⟩ := ih
    exact ⟨depth + 1, .work hnests hrow (hlisted _ _ hrow (by simp [hwork])) hwork hkind⟩
  | step _ hrow hwork hkind ih =>
    obtain ⟨⟨depth, hnests⟩, hlisted⟩ := ih
    exact ⟨hkind, depth, _, _, _, _, hnests, hrow, hlisted _ _ hrow (by simp [hwork]), hwork⟩
  | failed _ _ ih =>
    exact ⟨ih.1, fun found hfound =>
      List.Subset.trans (List.subset_cons_self _ _) (ih.2 found hfound)⟩
  | held _ _ _ ih =>
    refine ⟨ih.1, fun found hfound => ?_⟩
    split
    · exact List.nil_subset _
    · exact List.Subset.trans (List.subset_cons_self _ _) (ih.2 found hfound)
  | missing | static | read | fails | holds | idle | answered | ran | ended => trivial

theorem Executor.exists_passes {σ : Type} (executor : Executor σ) (script : Script)
    (results : Table Json) (runners : σ) {slot : RunnerSlot} {step : Step}
    {answer : Except String Json}
    (hcalled : .call slot step answer ∈ (executor.executeFrom script results runners).2.journal) :
    script.Asks step ∧ ∃ detour frames results, detour.script = script ∧
      Detour.Passes detour (.step step.id frames results) := by
  let final := (executor.executeFrom script results runners).2
  obtain ⟨before, after, heq⟩ := List.append_of_mem hcalled
  obtain ⟨fresh, hfresh⟩ := Infinite.exists_notMem_finset final.results.keys.toFinset
  have horderly := executor.orderly_executeFrom script fresh results runners
  obtain ⟨hasks, hstart⟩ := horderly.lawful before _ after heq
  have hnever : ¬ Watch.Done ⟨⟨executor, script⟩, fresh, results⟩ before := by
    intro hdone
    have hfinal := hdone.extend (.call slot step answer :: after)
    rw [← heq, Watch.Done, ← horderly.results_eq] at hfinal
    exact hfresh (List.mem_toFinset.mpr (Table.mem_keys_iff.mpr hfinal))
  obtain ⟨frames, hpasses⟩ := hstart.resolve_right hnever
  exact ⟨hasks, _, frames, _, rfl, hpasses⟩

/-- Where no operation stands deeper in others than the tree shows, and no condition has work that
is only read by others, the tree has a line for each step that any run calls. -/
theorem Script.displays_of_called {σ : Type} {script : Script}
    (hnests : ∀ depth uid, script.Nests depth uid → depth ≤ maxDisplayDepth)
    (hlists : script.ListsWork) (executor : Executor σ) (results : Table Json) (runners : σ)
    {slot : RunnerSlot} {step : Step} {answer : Except String Json}
    (hcalled : .call slot step answer ∈ (executor.executeFrom script results runners).2.journal) :
    script.Displays step := by
  obtain ⟨hasks, _, _, _, rfl, hpasses⟩ := executor.exists_passes script results runners hcalled
  obtain ⟨hkind, depth, _, _, _, _, hnested, hrow, hlisted, hwork⟩ := hpasses.shows hlists
  exact hnested.displays (hnests depth _ hnested) hrow hlisted hwork hkind hasks

def Script.overt : Script where
  order := (OperationOrder.empty.insert "op_1").1
  operations := Table.ofList [
    ("op_1", .conditional {
      conditions := Table.ofList [
        ("cond_1", { left := some (.internal "cond_2" Operand.conditionKey) }),
        ("cond_2", { left := some (.static (.bool true)), work := some "op_2" })]
      order := ["cond_1", "cond_2"] }),
    ("op_2", .conditional {
      conditions := Table.ofList [
        ("cond_3", { left := some (.static (.bool true)), work := some "step_1" })]
      order := ["cond_3"] })]
  steps := Table.ofList [("step_1", ⟨"step_1", .native, .native .null, none, [], 0⟩)]

theorem Script.nests_overt {depth : Nat} {uid : Uid} (h : overt.Nests depth uid) :
    depth ≤ 1 ∧ (uid = "op_1" → depth = 0) := by
  have hruns : ∀ entry ∈ overt.conditionals, ∀ found ∈ entry.2.conditions.entries,
      ∀ work ∈ found.2.work, WorkKind.of? work = some .operation →
        entry.1 = "op_1" ∧ work = "op_2" := by decide
  induction h with
  | listed => exact ⟨Nat.zero_le 1, fun _ => rfl⟩
  | work _ hrow _ hwork hkind ih =>
    obtain ⟨rfl, rfl⟩ := hruns _ (mem_conditionals_iff.mpr hrow.get_operation) _
      (Table.get?_eq_some_iff.mp hrow.get_row) _ hwork hkind
    rw [ih.2 rfl]
    exact ⟨Nat.le_refl 1, fun h => absurd h (by decide)⟩

theorem Script.listsWork_overt : overt.ListsWork := by
  have hlisted : ∀ entry ∈ overt.conditionals, ∀ found ∈ entry.2.conditions.entries,
      found.1 ∈ entry.2.order := by decide
  intro uid operation reader condition row nested _ _ hnested _
  exact hlisted _ (mem_conditionals_iff.mpr hnested.get_operation) _
    (Table.get?_eq_some_iff.mp hnested.get_row)

theorem Script.overt_displays_of_called :
    let step : Step := ⟨"step_1", .native, .native .null, none, [], 0⟩
    let run := Executor.willing.executeFrom Script.overt ∅ ()
    (∀ depth uid, Script.overt.Nests depth uid → depth ≤ maxDisplayDepth) ∧
      Script.overt.ListsWork ∧
      .call .default step (.ok .null) ∈ run.2.journal ∧
      Script.overt.Displays step := by
  intro step run
  have hnests : ∀ depth uid, Script.overt.Nests depth uid → depth ≤ maxDisplayDepth :=
    fun _ _ h => Nat.le_trans (Script.nests_overt h).1 (by decide)
  have hjournal : run.2.journal = run.2.journal.take 14 ++
      .call .default step (.ok .null) :: run.2.journal.drop 15 := rfl
  have hcalled : .call .default step (.ok .null) ∈ run.2.journal := by
    rw [hjournal]
    exact List.mem_append_right _ List.mem_cons_self
  exact ⟨hnests, Script.listsWork_overt, hcalled,
    Script.displays_of_called hnests Script.listsWork_overt _ _ _ hcalled⟩

/-- A condition with a step of its own that is only read. -/
def Script.covert : Script where
  order := (OperationOrder.empty.insert "op_1").1
  operations := Table.ofList [("op_1", .conditional {
    conditions := Table.ofList [
      ("cond_1", { left := some (.internal "cond_2" Operand.conditionKey) }),
      ("cond_2", { left := some (.static (.bool true)), work := some "step_1" })]
    order := ["cond_1"] })]
  steps := Table.ofList [("step_1", ⟨"step_1", .native, .native .null, none, [], 0⟩)]

/-- No operation stands in another one, and the run succeeds. The step is called, and no line names
it. -/
theorem Script.covert_not_displays :
    let step : Step := ⟨"step_1", .native, .native .null, none, [], 0⟩
    let run := Executor.willing.executeFrom Script.covert ∅ ()
    (∀ depth uid, Script.covert.Nests depth uid → depth ≤ maxDisplayDepth) ∧
      Script.covert.isValid ∧ run.1 = .ok () ∧
      .call .default step (.ok .null) ∈ run.2.journal ∧
      ¬ Script.covert.Displays step := by
  intro step run
  have hruns : ∀ row ∈ Script.covert.rows, ∀ work ∈ row.work,
      WorkKind.of? work ≠ some .operation := by decide
  refine ⟨fun depth uid h => ?_, by decide, rfl, ?_, ?_⟩
  · cases h with
    | listed => exact Nat.zero_le _
    | work _ hrow _ hwork hkind =>
      exact absurd hkind (hruns _ (Script.mem_rows hrow.get_operation hrow.get_row) _ hwork)
  · have hjournal : run.2.journal = run.2.journal.take 8 ++
        .call .default step (.ok .null) :: run.2.journal.drop 9 := rfl
    rw [hjournal]
    exact List.mem_append_right _ List.mem_cons_self
  · rintro ⟨margin, _, hmem⟩
    have hnone : ∀ line ∈ Script.covert.lines,
        ¬ "Step step_1 [native]".toList <:+: line.toList := by decide
    have hline : stepLine step.id step = "Step step_1 [native]" := by decide
    refine hnone _ hmem (List.IsSuffix.isInfix ?_)
    change _ <:+ (margin ++ branch true ++ stepLine step.id step).toList
    rw [hline, String.toList_append]
    exact List.suffix_append _ _

end Workflow
