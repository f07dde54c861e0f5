import Mathlib.Data.List.Induction
import Workflow.Proofs.Authoring.Updates

/-!
What pushing makes of the tables, whatever operations are pushed and however often. Work is merged
twice, when an operation collects it and when the operation is pushed. Main statement: the order
lists the operations as they were pushed first, every entry stands under its own identifier, and
nothing is lost of what was collected anywhere.
-/

set_option autoImplicit false

namespace Workflow

/-- Work as it is put together, with all work that was ever collected for it: an operation collects
the work of its conditions, for which other work was collected before. -/
inductive WorkUnit.Composed : List WorkUnit → List WorkUnit → Prop
  | nil : Composed [] []
  | step {units collected : List WorkUnit} (step : Step) :
      Composed units collected → Composed (.step step :: units) collected
  | operation {id : Uid} {conditions : List Condition} {bundle : Bundle}
      {units inner collected : List WorkUnit} : bundle.BuiltFrom id conditions →
      Composed (conditions.flatMap Condition.work) inner → Composed units collected →
      Composed (.operation bundle :: units)
        (conditions.flatMap Condition.work ++ inner ++ collected)

namespace Bundle

variable {id : Uid} {conditions : List Condition} {bundle : Bundle}

theorem steps_foldl_addCondition (conditions : List Condition) (bundle : Bundle) :
    (conditions.foldl addCondition bundle).steps =
      ((conditions.flatMap Condition.work).foldl addWork bundle).steps := by
  induction conditions generalizing bundle with
  | nil => rfl
  | cons condition conditions ih =>
    have hcondition : (bundle.addCondition condition).steps =
        (condition.work.foldl addWork bundle).steps := rfl
    rw [List.foldl_cons, ih, List.flatMap_cons, List.foldl_append, steps_foldl_addWork,
      steps_foldl_addWork, hcondition]

theorem BuiltFrom.tables_eq (h : bundle.BuiltFrom id conditions) :
    let collected := (conditions.flatMap Condition.work).foldl addWork (.empty id)
    bundle.operations = collected.operations ∧ bundle.steps = collected.steps := by
  have hbundle : bundle.unconfigured = conditions.foldl addCondition (.empty id) :=
    h.unconfigured_eq
  have hoperations := congrArg Bundle.operations hbundle
  have hsteps := congrArg Bundle.steps hbundle
  rw [operations_foldl_addCondition] at hoperations
  rw [steps_foldl_addCondition] at hsteps
  exact ⟨hoperations, hsteps⟩

theorem stocked_foldl_addWork_empty {P : Operation → Prop} {Q : Step → Prop}
    {units : List WorkUnit} (h : ∀ unit ∈ units, unit.Supplies P Q) (id : Uid) :
    (units.foldl addWork (.empty id)).Stocked P Q :=
  Stocked.foldl_addWork ⟨.empty, .empty⟩ h

theorem holds_foldl_addWork_empty {units : List WorkUnit} {other : WorkUnit}
    (h : ∃ unit ∈ units, unit.Brings other) (id : Uid) :
    (units.foldl addWork (.empty id)).Holds other :=
  holds_foldl_addWork (.inr h)

theorem BuiltFrom.stocked {P : Operation → Prop} {Q : Step → Prop}
    (h : bundle.BuiltFrom id conditions)
    (hunits : ∀ unit ∈ conditions.flatMap Condition.work, unit.Supplies P Q) :
    bundle.Stocked P Q := by
  obtain ⟨hoperations, hsteps⟩ := h.tables_eq
  have hstocked := stocked_foldl_addWork_empty hunits id
  exact ⟨hoperations ▸ hstocked.operations, hsteps ▸ hstocked.steps⟩

theorem BuiltFrom.holds {other : WorkUnit} (h : bundle.BuiltFrom id conditions)
    (hbrings : ∃ unit ∈ conditions.flatMap Condition.work, unit.Brings other) :
    bundle.Holds other := by
  obtain ⟨hoperations, hsteps⟩ := h.tables_eq
  have hholds := holds_foldl_addWork_empty hbrings id
  cases other with
  | step step => rwa [Holds, hsteps]
  | operation nested => rwa [Holds, hoperations]

end Bundle

namespace WorkUnit.Composed

variable {units collected : List WorkUnit}

theorem supplies (h : Composed units collected) : ∀ unit ∈ units,
    unit.Supplies (fun operation => ∃ found, operation = .conditional found) fun _ => True := by
  induction h with
  | nil => exact fun _ hmem => nomatch hmem
  | step step _ ih => exact List.forall_mem_cons.mpr ⟨trivial, ih⟩
  | operation hbuilt _ _ ihinner ih =>
    exact List.forall_mem_cons.mpr ⟨⟨⟨_, rfl⟩, hbuilt.stocked ihinner⟩, ih⟩

theorem brings (h : Composed units collected) :
    ∀ other ∈ collected, ∃ unit ∈ units, unit.Brings other := by
  induction h with
  | nil => exact fun _ hmem => nomatch hmem
  | step step _ ih =>
    intro other hother
    obtain ⟨unit, hunit, hbrings⟩ := ih other hother
    exact ⟨unit, List.mem_cons_of_mem _ hunit, hbrings⟩
  | @operation id conditions bundle units inner collected hbuilt _ _ ihinner ih =>
    intro other hother
    simp only [List.mem_append] at hother
    rcases hother with (hown | hinner) | hrest
    · have hholds := hbuilt.holds ⟨other, hown, .inl rfl⟩
      exact ⟨_, List.mem_cons_self, .inr ⟨bundle, rfl, hholds⟩⟩
    · have hholds := hbuilt.holds (ihinner other hinner)
      exact ⟨_, List.mem_cons_self, .inr ⟨bundle, rfl, hholds⟩⟩
    · obtain ⟨unit, hunit, hbrings⟩ := ih other hrest
      exact ⟨unit, List.mem_cons_of_mem _ hunit, hbrings⟩

end WorkUnit.Composed

namespace Flow

theorem eraseDups_append_singleton (uids : List Uid) (uid : Uid) : (uids ++ [uid]).eraseDups =
    if uid ∈ uids then uids.eraseDups else uids.eraseDups ++ [uid] := by
  rw [List.eraseDups_append]
  by_cases h : uid ∈ uids <;> simp [List.removeAll, h, List.eraseDups_cons]

theorem order_pushAll (bundles : List Bundle) :
    (pushAll {} bundles).script.order.uids = (bundles.map Bundle.id).eraseDups := by
  induction bundles using List.reverseRecOn with
  | nil => rfl
  | append_singleton bundles bundle ih =>
    have hpush : (pushAll {} (bundles ++ [bundle])).script.order =
        ((pushAll {} bundles).script.order.insert bundle.id).1 := by
      simp only [pushAll, List.foldl_append, List.foldl_cons, List.foldl_nil]
      rfl
    have hmem : bundle.id ∈ (pushAll {} bundles).script.order.uids ↔
        bundle.id ∈ bundles.map Bundle.id := by
      rw [ih, List.mem_eraseDups]
    rw [hpush, List.map_append, List.map_singleton, eraseDups_append_singleton, ← ih,
      OperationOrder.insert]
    simp only [← hmem]
    split <;> rfl

theorem keyed_pushAll {P : Operation → Prop} {Q : Step → Prop} {bundles : List Bundle}
    (h : ∀ unit ∈ bundles.map WorkUnit.operation, unit.Supplies P Q) :
    (pushAll {} bundles).script.operations.Keyed Operation.id P ∧
      (pushAll {} bundles).script.steps.Keyed Step.id Q := by
  obtain ⟨hoperations, hsteps⟩ := tables_pushAll bundles {} (.empty "") rfl rfl
  have hstocked := Bundle.stocked_foldl_addWork_empty h ""
  rw [hoperations, hsteps]
  exact ⟨hstocked.operations, hstocked.steps⟩

theorem contains_pushAll {bundles : List Bundle} :
    (∀ step, (∃ unit ∈ bundles.map WorkUnit.operation, unit.Brings (.step step)) →
      (pushAll {} bundles).script.steps.contains step.id) ∧
    ∀ nested, (∃ unit ∈ bundles.map WorkUnit.operation, unit.Brings (.operation nested)) →
      (pushAll {} bundles).script.operations.contains nested.id := by
  obtain ⟨hoperations, hsteps⟩ := tables_pushAll bundles {} (.empty "") rfl rfl
  rw [hoperations, hsteps]
  exact ⟨fun step h => Bundle.holds_foldl_addWork_empty h "",
    fun nested h => Bundle.holds_foldl_addWork_empty h ""⟩

/-- The order lists what was pushed, without repetition and each operation where it was pushed
first; all that it lists are conditional operations of the script. Every operation and step stands
under its own identifier, and whatever an operation ever collected is still there. -/
theorem order_and_tables_pushAll {bundles : List Bundle} {collected : List WorkUnit}
    (h : WorkUnit.Composed (bundles.map .operation) collected) :
    let script := (pushAll {} bundles).script
    script.order.uids = (bundles.map Bundle.id).eraseDups ∧ script.order.uids.Nodup ∧
      (∀ uid ∈ script.order.uids, ∃ operation,
        script.operations.get? uid = some (.conditional operation)) ∧
      (∀ uid operation, script.operations.get? uid = some operation → operation.id = uid) ∧
      (∀ uid step, script.steps.get? uid = some step → step.id = uid) ∧
      (∀ step, .step step ∈ collected → script.steps.contains step.id) ∧
      ∀ nested, .operation nested ∈ collected → script.operations.contains nested.id := by
  intro script
  obtain ⟨hoperations, hsteps⟩ := keyed_pushAll h.supplies
  obtain ⟨hcontainsStep, hcontainsOperation⟩ := @contains_pushAll bundles
  refine ⟨order_pushAll bundles, script.order.nodup, fun uid hlisted => ?_,
    fun uid operation hget => ?_, fun uid step hget => ?_, fun step hmem => ?_,
    fun nested hmem => ?_⟩
  · have hpushed : uid ∈ bundles.map Bundle.id := by
      rwa [← List.mem_eraseDups, ← order_pushAll]
    obtain ⟨bundle, hbundle, rfl⟩ := List.mem_map.mp hpushed
    have hcontains := hcontainsOperation bundle ⟨_, List.mem_map_of_mem hbundle, .inl rfl⟩
    obtain ⟨operation, hget⟩ := Option.isSome_iff_exists.mp hcontains
    obtain ⟨-, found, rfl⟩ := hoperations _ (Table.get?_eq_some_iff.mp hget)
    exact ⟨found, hget⟩
  · exact (hoperations _ (Table.get?_eq_some_iff.mp hget)).1
  · exact (hsteps _ (Table.get?_eq_some_iff.mp hget)).1
  · exact hcontainsStep step (h.brings _ hmem)
  · exact hcontainsOperation nested (h.brings _ hmem)

end Flow

namespace Family

theorem settle_builtFrom : settle.BuiltFrom "op_1" settleParts := by
  have hopening := @Bundle.BuiltFrom.andThen "op_1" [] opening (.step notify) (.ofConditions [])
  have hfurther := @Bundle.BuiltFrom.andThen "op_1" _ further (.step refund) hopening
  exact hfurther.otherwise "cond_3" (.step notify)

/-- What was collected for the nested operation, two levels below what is pushed, is in the tables,
and the operation that is pushed again stays where it was pushed first. -/
theorem order_and_tables_pushAll_sample :
    let pushed := [repeated, Bundle.ofConditions "op_3" [report], repeated.withCritical false]
    let script := (Flow.pushAll {} pushed).script
    script.order.uids = ["op_2", "op_3"] ∧ script.steps.contains refund.id ∧
      script.operations.contains settle.id := by
  intro pushed script
  have hsettle {units collected : List WorkUnit} (h : WorkUnit.Composed units collected) :
      WorkUnit.Composed (.operation settle :: units) _ :=
    .operation settle_builtFrom
      (.step notify (.step balance (.step refund (.step balance (.step notify .nil))))) h
  have hrepeated {bundle : Bundle} (hbuilt : bundle.BuiltFrom "op_2" [again])
      {units collected : List WorkUnit} (h : WorkUnit.Composed units collected) :
      WorkUnit.Composed (.operation bundle :: units) _ :=
    .operation hbuilt (hsettle (.step balance (hsettle .nil))) h
  have hreport {units collected : List WorkUnit} (h : WorkUnit.Composed units collected) :
      WorkUnit.Composed (.operation (.ofConditions "op_3" [report]) :: units) _ :=
    .operation (.ofConditions [report]) (hrepeated (.ofConditions [again]) .nil) h
  have hagain : (Bundle.ofConditions "op_2" [again]).BuiltFrom "op_2" [again] := .ofConditions _
  have hpushed : WorkUnit.Composed (pushed.map .operation) _ :=
    hrepeated hagain (hreport (hrepeated (hagain.withCritical false) .nil))
  obtain ⟨horder, -, -, -, -, hsteps, hoperations⟩ := Flow.order_and_tables_pushAll hpushed
  exact ⟨horder, hsteps refund (by decide), hoperations settle (by decide)⟩

end Family

end Workflow
