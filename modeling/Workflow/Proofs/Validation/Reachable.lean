import Mathlib.Data.Set.Finite.Basic
import Mathlib.Order.WellFounded
import Workflow.Proofs.Validation.WellFormed

/-!
Operations that can be reached from the order by what conditions run. Validation looks for a
condition with the operation as its work, wherever that condition is; so what it lets through can be
reached from the order, or from operations that run themselves.
-/

set_option autoImplicit false

namespace Workflow

namespace Script

def Runs (script : Script) (uid work : Uid) : Prop :=
  ∃ operation condition row, script.HasRow uid operation condition row ∧ row.work = some work

variable {script : Script}

theorem exists_hasRow_of_mem_rows {row : ConditionRow} (h : row ∈ script.rows) :
    ∃ uid operation condition, script.HasRow uid operation condition row := by
  obtain ⟨⟨uid, operation⟩, hentry, hvalue⟩ := List.mem_flatMap.mp h
  obtain ⟨⟨condition, found⟩, hmem, rfl⟩ := List.mem_map.mp hvalue
  exact ⟨uid, operation, condition, mem_conditionals_iff.mp hentry, Table.get?_eq_some_iff.mpr hmem⟩

theorem Runs.contains {uid work : Uid} (h : script.Runs uid work) :
    script.operations.contains uid := by
  obtain ⟨operation, condition, row, hrow, -⟩ := h
  simp [Table.contains, hrow.get_operation]

def works (script : Script) (uid : Uid) : List Uid :=
  match script.operations.get? uid with
  | some (.conditional operation) => operation.conditions.values.filterMap ConditionRow.work
  | _ => []

theorem Runs.mem_works {uid work : Uid} (h : script.Runs uid work) : work ∈ script.works uid := by
  obtain ⟨operation, condition, row, hrow, hwork⟩ := h
  have hmem : row ∈ operation.conditions.values :=
    List.mem_map.mpr ⟨(condition, row), Table.get?_eq_some_iff.mp hrow.get_row, rfl⟩
  simp only [works, hrow.get_operation]
  exact List.mem_filterMap.mpr ⟨row, hmem, hwork⟩

theorem mem_of_reached {uids : List Uid}
    (hclosed : ∀ uid ∈ uids, ∀ work ∈ script.works uid, work ∈ uids) {uid other : Uid}
    (hmem : uid ∈ uids) (h : Relation.ReflTransGen script.Runs uid other) : other ∈ uids := by
  induction h with
  | refl => exact hmem
  | tail _ hlast ih => exact hclosed _ ih _ hlast.mem_works

/-- The operations from which `uid` can be reached. -/
def Above (script : Script) (uid : Uid) : Type :=
  { above : Uid // script.operations.contains above ∧ Relation.ReflTransGen script.Runs above uid }

instance (uid : Uid) : Finite (script.Above uid) := by
  have hfinite : { above | above ∈ script.operations.keys }.Finite := List.finite_toSet _
  refine Set.Finite.subset hfinite fun above h => ?_
  exact Table.mem_keys_iff.mpr h.1

theorem exists_unrun {uid : Uid} (hcontains : script.operations.contains uid)
    (hacyclic : ∀ above : script.Above uid, ¬ Relation.TransGen script.Runs above.1 above.1) :
    ∃ top : script.Above uid, ∀ runner, ¬ script.Runs runner top.1 := by
  let before : script.Above uid → script.Above uid → Prop :=
    fun a b => Relation.TransGen script.Runs a.1 b.1
  have htrans : IsTrans (script.Above uid) before := ⟨fun _ _ _ => Relation.TransGen.trans⟩
  have hirrefl : Std.Irrefl before := ⟨hacyclic⟩
  have hwf : WellFounded before := Finite.wellFounded_of_trans_of_irrefl before
  obtain ⟨top, -, hmin⟩ := hwf.has_min Set.univ ⟨⟨uid, hcontains, .refl⟩, trivial⟩
  refine ⟨top, fun runner hruns => ?_⟩
  have habove : Relation.ReflTransGen script.Runs runner uid := .head hruns top.2.2
  exact hmin ⟨runner, hruns.contains, habove⟩ trivial (.single hruns)

/-- Every operation of a valid script can be reached, by what conditions run, from one that is listed
or from one that runs itself, at once or through others. So where no operation runs itself all can be
reached from the order. -/
theorem reached_or_below_cycle (h : script.isValid) {uid : Uid}
    (hcontains : script.operations.contains uid) :
    (∃ listed ∈ script.order.uids, Relation.ReflTransGen script.Runs listed uid) ∨
      ∃ looped, Relation.TransGen script.Runs looped looped ∧
        Relation.ReflTransGen script.Runs looped uid := by
  by_cases hacyclic :
      ∀ above : script.Above uid, ¬ Relation.TransGen script.Runs above.1 above.1
  · obtain ⟨⟨top, htop, hreach⟩, hunrun⟩ := exists_unrun hcontains hacyclic
    -- Nothing runs the topmost operation, so it is there because it is listed.
    rcases (isValid_iff_wellFormed.mp h).entered _ htop with hlisted | ⟨row, hmem, hwork⟩
    · exact .inl ⟨top, hlisted, hreach⟩
    · obtain ⟨runner, operation, condition, hrow⟩ := exists_hasRow_of_mem_rows hmem
      exact absurd ⟨operation, condition, row, hrow, hwork⟩ (hunrun runner)
  · obtain ⟨looped, hcycle⟩ := not_forall_not.mp hacyclic
    exact .inr ⟨looped.1, hcycle, looped.2.2⟩

/-- A listed operation that runs another one, and beside them an operation that runs itself and a
further one. -/
def islands : Script where
  order := (OperationOrder.empty.insert "op_1").1
  operations := Table.ofList [
    ("op_1", .conditional {
      conditions := Table.ofList [
        ("cond_1", { left := some (.static (.bool true)), work := some "op_2" })]
      order := ["cond_1"] }),
    ("op_2", .conditional {
      conditions := Table.ofList [("cond_2", { left := some (.static (.bool true)) })]
      order := ["cond_2"] }),
    ("op_3", .conditional {
      conditions := Table.ofList [
        ("cond_3", { left := some (.static (.bool true)), work := some "op_3" }),
        ("cond_4", { left := some (.static (.bool true)), work := some "op_4" })]
      order := ["cond_3", "cond_4"] }),
    ("op_4", .conditional {
      conditions := Table.ofList [("cond_5", { left := some (.static (.bool true)) })]
      order := ["cond_5"] })]

theorem mem_of_reached_islands {listed uid : Uid} (hlisted : listed ∈ islands.order.uids)
    (h : Relation.ReflTransGen islands.Runs listed uid) : uid ∈ ["op_1", "op_2"] := by
  have hclosed : ∀ uid ∈ ["op_1", "op_2"], ∀ work ∈ islands.works uid, work ∈ ["op_1", "op_2"] := by
    decide
  obtain rfl : listed = "op_1" := List.mem_singleton.mp hlisted
  exact mem_of_reached hclosed List.mem_cons_self h

/-- The fourth operation is not reached from the order, so it is from one that runs itself. -/
theorem islands_reached_or_below_cycle :
    islands.isValid ∧ islands.operations.contains "op_4" ∧
      ∃ looped, Relation.TransGen islands.Runs looped looped ∧
        Relation.ReflTransGen islands.Runs looped "op_4" := by
  have hvalid : islands.isValid := by decide
  have hcontains : islands.operations.contains "op_4" := by decide
  refine ⟨hvalid, hcontains, ?_⟩
  rcases reached_or_below_cycle hvalid hcontains with ⟨listed, hlisted, hreach⟩ | hbelow
  · exact absurd (mem_of_reached_islands hlisted hreach) (by decide)
  · exact hbelow

/-- The script is valid, and nothing that is listed leads to its third operation. -/
theorem islands_not_reached :
    islands.isValid ∧ islands.operations.contains "op_3" ∧
      ∀ listed ∈ islands.order.uids, ¬ Relation.ReflTransGen islands.Runs listed "op_3" :=
  ⟨by decide, by decide, fun _ hlisted hreach =>
    absurd (mem_of_reached_islands hlisted hreach) (by decide)⟩

end Script

end Workflow
