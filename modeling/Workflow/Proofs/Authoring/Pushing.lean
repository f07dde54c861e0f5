import Workflow.Proofs.Authoring.Family
import Workflow.Proofs.Validation.WellFormed

/-!
Pushing a family into a new workflow. In whatever order that is done, the script then has all work
of the family and nothing else, and no rule finds anything wrong with it.
-/

set_option autoImplicit false

namespace Workflow

/-- The script lists the operations of the family, and its tables have all work of the family and
nothing else. -/
structure Script.Carries (script : Script) (family : Family) : Prop where
  order : ∀ uid, uid ∈ script.order.uids ↔ uid ∈ family.bundles.map Bundle.id
  operations : ∀ uid operation, script.operations.get? uid = some operation ↔
    operation.IsOf family.work ∧ operation.id = uid
  steps : ∀ uid step, script.steps.get? uid = some step ↔
    .step step ∈ family.work ∧ step.id = uid

namespace Flow

theorem tables_pushAll (bundles : List Bundle) (flow : Flow) (bundle : Bundle)
    (hoperations : flow.script.operations = bundle.operations)
    (hsteps : flow.script.steps = bundle.steps) :
    let collected := (bundles.map .operation).foldl Bundle.addWork bundle
    (flow.pushAll bundles).script.operations = collected.operations ∧
      (flow.pushAll bundles).script.steps = collected.steps := by
  induction bundles generalizing flow bundle with
  | nil => exact ⟨hoperations, hsteps⟩
  | cons pushed bundles ih =>
    refine ih (flow.push pushed) (bundle.addWork (.operation pushed)) ?_ ?_
    · simp only [push, Bundle.addWork, hoperations]
    · simp only [push, Bundle.addWork, hsteps]

theorem mem_order_pushAll (bundles : List Bundle) {flow : Flow} {uid : Uid} :
    uid ∈ (flow.pushAll bundles).script.order.uids ↔
      uid ∈ flow.script.order.uids ∨ uid ∈ bundles.map Bundle.id := by
  induction bundles generalizing flow with
  | nil => simp [pushAll]
  | cons pushed bundles ih =>
    have hpush : uid ∈ (flow.push pushed).script.order.uids ↔
        uid = pushed.id ∨ uid ∈ flow.script.order.uids := OperationOrder.mem_insert
    rw [pushAll, List.foldl_cons, ← pushAll, ih, hpush, List.map_cons, List.mem_cons, or_assoc,
      or_left_comm]

end Flow

namespace Family

variable {family : Family} {part c : Condition} {unit : WorkUnit}

theorem work_subset (h : part ∈ family.parts) : part.work ⊆ family.work :=
  fun _ hunit => List.mem_append_right _ (List.mem_flatMap.mpr ⟨part, h, hunit⟩)

theorem conditions_subset (h : part ∈ family.parts) :
    part.expr.conditions ⊆ family.conditions :=
  fun _ hc => List.mem_flatMap.mpr ⟨part, h, hc⟩

theorem work_subset_of_mem_conditions (h : c ∈ family.conditions) : c.work ⊆ family.work := by
  obtain ⟨part, hpart, hc⟩ := List.mem_flatMap.mp h
  exact List.Subset.trans (Expr.work_subset hc) (work_subset hpart)

theorem sound (h : unit ∈ family.work) : unit.Sound family.work family.conditions := by
  obtain ⟨hbundles, hparts⟩ := family.made.sound (fun _ => work_subset) fun _ => conditions_subset
  rcases List.mem_append.mp h with h | h
  · exact hbundles unit h
  · obtain ⟨part, hpart, hunit⟩ := List.mem_flatMap.mp h
    exact hparts part hpart unit hunit

variable {order : List Bundle}

theorem collected (horder : ∀ bundle, bundle ∈ order ↔ bundle ∈ family.bundles) :
    let collected := (order.map .operation).foldl Bundle.addWork (.empty "")
    collected.Stocked (Operation.IsOf family.work) (.step · ∈ family.work) ∧
      ∀ unit ∈ family.work, collected.Holds unit := by
  have hpushed : ∀ unit, unit ∈ order.map WorkUnit.operation ↔
      unit ∈ family.bundles.map WorkUnit.operation := by
    simp only [List.mem_map, horder, implies_true]
  constructor
  · refine Bundle.Stocked.foldl_addWork ⟨.empty, .empty⟩ fun unit hunit => ?_
    have hmem : unit ∈ family.work := List.mem_append_left _ ((hpushed unit).mp hunit)
    exact (sound hmem).supplies hmem
  · intro unit hunit
    refine Bundle.holds_foldl_addWork (.inr ?_)
    rcases List.mem_append.mp hunit with hunit | hunit
    · exact ⟨unit, (hpushed unit).mpr hunit, .inl rfl⟩
    · obtain ⟨part, hpart, hunit⟩ := List.mem_flatMap.mp hunit
      obtain ⟨bundle, hbundle, hholds⟩ := family.made.holds part hpart unit hunit
      exact ⟨_, (hpushed _).mpr hbundle, .inr ⟨bundle, rfl, hholds⟩⟩

/-- Nothing is lost, and the order does not matter. -/
theorem Coherent.carries_pushAll (hcoherent : family.Coherent)
    (horder : ∀ bundle, bundle ∈ order ↔ bundle ∈ family.bundles) :
    (Flow.pushAll {} order).script.Carries family := by
  obtain ⟨⟨hoperations, hsteps⟩, hholds⟩ := collected horder
  obtain ⟨hoperationTable, hstepTable⟩ := Flow.tables_pushAll order {} (.empty "") rfl rfl
  rw [← hoperationTable] at hoperations
  rw [← hstepTable] at hsteps
  constructor
  · intro uid
    rw [Flow.mem_order_pushAll]
    simp [OperationOrder.empty, horder]
  · intro uid operation
    refine hoperations.get?_eq_some_iff ?_ ?_
    · rintro _ ⟨bundle, rfl, hmem⟩
      rw [hoperationTable]
      exact hholds _ hmem
    · rintro _ _ ⟨bundle, rfl, hmem⟩ ⟨other, rfl, hother⟩ hid
      obtain rfl := WorkUnit.operation.inj (hcoherent.work _ hmem _ hother hid)
      rfl
  · intro uid step
    refine hsteps.get?_eq_some_iff ?_ ?_
    · intro step hmem
      rw [hstepTable]
      exact hholds _ hmem
    · intro step other hmem hother hid
      exact WorkUnit.step.inj (hcoherent.work _ hmem _ hother hid)

end Family

theorem OutputRef.outputHead_key (reference : OutputRef) :
    Operand.outputHead reference.key = reference.field := by
  have hkeys : ∀ kind : StepKind, ∀ field ∈ kind.outputKeys,
      Operand.outputHead ("output." ++ field) = field := by
    intro kind
    cases kind <;> decide
  have hoperation : ∀ field ∈ Conditional.outputKeys,
      Operand.outputHead ("output." ++ field) = field := by decide
  obtain ⟨work, field, hmem⟩ := reference
  cases work with
  | step step => exact hkeys step.kind field hmem
  | operation bundle => exact hoperation field hmem

namespace Script.Carries

variable {script : Script} {family : Family} {unit : WorkUnit} {part c : Condition}
  {uid condition : Uid} {operation : Conditional} {row : ConditionRow}

theorem get?_operation (h : script.Carries family) {bundle : Bundle}
    (hmem : .operation bundle ∈ family.work) :
    script.operations.get? bundle.id = some (.conditional bundle.operation) :=
  (h.operations _ _).mpr ⟨⟨bundle, rfl, hmem⟩, rfl⟩

theorem get?_step (h : script.Carries family) {step : Step} (hmem : .step step ∈ family.work) :
    script.steps.get? step.id = some step :=
  (h.steps _ _).mpr ⟨hmem, rfl⟩

theorem mem_rows (h : script.Carries family) (hcoherent : family.Coherent)
    (hc : c ∈ family.conditions) : c.row ∈ script.rows := by
  obtain ⟨part, hpart, hpartc⟩ := List.mem_flatMap.mp hc
  obtain ⟨bundle, hbundle, hcontains⟩ := family.made.placed part hpart c hpartc
  have hmem : .operation bundle ∈ family.work := by
    rcases hbundle with hbundle | ⟨other, hother, hbundle⟩
    · exact List.mem_append_left _ hbundle
    · exact Family.work_subset hother hbundle
  obtain ⟨row, hrow⟩ := Option.isSome_iff_exists.mp hcontains
  obtain ⟨d, hd, heq, -⟩ := (Family.sound hmem).rows _ (Table.get?_eq_some_iff.mp hrow)
  obtain ⟨hid, rfl⟩ := Prod.mk.inj heq
  obtain rfl := hcoherent.conditions c hc d hd hid
  exact Script.mem_rows (h.get?_operation hmem) hrow

theorem exists_condition (h : script.Carries family)
    (hoperation : script.operations.get? uid = some (.conditional operation))
    (hrow : operation.conditions.get? condition = some row) :
    ∃ c ∈ family.conditions, row = c.row ∧ ∀ d ∈ c.expr.conditions,
      WorkKind.of? d.id = some .condition ∧ operation.conditions.contains d.id := by
  obtain ⟨⟨bundle, heq, hmem⟩, -⟩ := (h.operations _ _).mp hoperation
  obtain rfl := Operation.conditional.inj heq
  obtain ⟨c, hc, heq, hbelow⟩ := (Family.sound hmem).rows _ (Table.get?_eq_some_iff.mp hrow)
  exact ⟨c, hc, congrArg Prod.snd heq, hbelow⟩

theorem exists_row (h : script.Carries family) (hcoherent : family.Coherent)
    (hpart : part ∈ family.parts) (hunit : unit ∈ part.work) :
    ∃ row ∈ script.rows, unit.id ∈ row.work.toList ++ row.owners := by
  rcases Expr.mem_actions_or_outputs hunit with haction | ⟨reference, hreference, rfl⟩
  · obtain ⟨c, hc, haction⟩ := Expr.exists_of_mem_actions haction
    refine ⟨c.row, h.mem_rows hcoherent (Family.conditions_subset hpart hc), ?_⟩
    simp [Condition.row, Expr.row, haction]
  · rcases Expr.eq_or_exists_of_mem_outputs hreference with heq | ⟨c, hc, hside⟩
    · cases heq
    · refine ⟨c.row, h.mem_rows hcoherent (Family.conditions_subset hpart hc), ?_⟩
      have hoperand : reference.operand ∈ c.row.operands :=
        Condition.mem_operands_row_iff.mpr ⟨_, hside, rfl⟩
      exact List.mem_append_right _ (ConditionRow.mem_owners hoperand)

theorem usesStep (h : script.Carries family) (hcoherent : family.Coherent) {step : Step}
    (hfound : script.steps.get? uid = some step) :
    ∃ row ∈ script.rows, Rule.usesStep uid row := by
  obtain ⟨hmem, rfl⟩ := (h.steps _ _).mp hfound
  have hkind : WorkKind.of? step.id = some .step := (Family.sound hmem).1
  rcases List.mem_append.mp hmem with hpushed | hbrought
  · obtain ⟨bundle, -, heq⟩ := List.mem_map.mp hpushed
    cases heq
  · obtain ⟨part, hpart, hunit⟩ := List.mem_flatMap.mp hbrought
    obtain ⟨row, hrow, huses⟩ := h.exists_row hcoherent hpart hunit
    exact ⟨row, hrow, by simpa [Rule.usesStep, WorkUnit.id, hkind] using huses⟩

theorem dependsOn_operation (h : script.Carries family) {found : Operation}
    (hfound : script.operations.get? uid = some found) : found.dependsOn = [] := by
  obtain ⟨⟨bundle, rfl, hmem⟩, -⟩ := (h.operations _ _).mp hfound
  exact (Family.sound hmem).dependsOn

theorem dependsOn_step (h : script.Carries family) {step : Step}
    (hfound : script.steps.get? uid = some step) : step.dependsOn = [] := by
  obtain ⟨hmem, -⟩ := (h.steps _ _).mp hfound
  exact (Family.sound hmem).2

theorem of_mem_work (h : script.Carries family) (hmem : unit ∈ family.work) :
    unit.id.isWork ∧ script.containsWork unit.id ∧ ∀ operation key,
      Rule.exposes? script operation unit.id key =
        some (unit.outputKeys.contains (Operand.outputHead key)) := by
  cases unit with
  | step step =>
    have hkind : WorkKind.of? step.id = some .step := (Family.sound hmem).1
    have hstep := h.get?_step hmem
    simp [WorkUnit.id, WorkUnit.outputKeys, Uid.isWork, Script.containsWork, Rule.exposes?, hkind,
      Table.contains, hstep]
  | operation bundle =>
    have hkind : WorkKind.of? bundle.operation.id = some .operation := (Family.sound hmem).kind
    have hbundle : script.operations.get? bundle.operation.id = some _ := h.get?_operation hmem
    simp [WorkUnit.id, WorkUnit.outputKeys, Uid.isWork, Script.containsWork, Rule.exposes?, hkind,
      Table.contains, hbundle]

theorem containsWork (h : script.Carries family)
    (hoperation : script.operations.get? uid = some (.conditional operation))
    (hrow : operation.conditions.get? condition = some row) {work : Uid}
    (hwork : row.work = some work) : work.isWork ∧ script.containsWork work := by
  obtain ⟨c, hc, rfl, -⟩ := h.exists_condition hoperation hrow
  obtain ⟨unit, haction, rfl⟩ := Option.map_eq_some_iff.mp hwork
  have hmem : unit ∈ family.work :=
    Family.work_subset_of_mem_conditions hc (Condition.mem_work_of_action haction)
  obtain ⟨hisWork, hcontains, -⟩ := h.of_mem_work hmem
  exact ⟨hisWork, hcontains⟩

theorem exposes? (h : script.Carries family)
    (hoperation : script.operations.get? uid = some (.conditional operation))
    (hrow : operation.conditions.get? condition = some row) {owner : Uid} {key : String}
    (hoperand : .internal owner key ∈ row.operands) :
    Rule.exposes? script operation owner key = some true := by
  obtain ⟨c, hc, rfl, hbelow⟩ := h.exists_condition hoperation hrow
  obtain ⟨side, hside, hinternal⟩ := Condition.mem_operands_row_iff.mp hoperand
  rcases Expr.eq_of_operand?_internal hinternal with ⟨reference, rfl, rfl, rfl⟩ | ⟨d, hd, rfl, rfl⟩
  · have hmem : reference.work ∈ family.work :=
      Family.work_subset_of_mem_conditions hc
        (Condition.work_subset_of_mem_sides hside (List.mem_singleton_self _))
    obtain ⟨-, -, hexposes⟩ := h.of_mem_work hmem
    rw [OutputRef.owner, hexposes, reference.outputHead_key,
      List.contains_iff_mem.mpr reference.field_mem]
  · obtain ⟨hkind, hcontains⟩ := hbelow d (Condition.conditions_subset_of_mem_sides hside hd)
    simp [Rule.exposes?, hkind, hcontains]

theorem reached (h : script.Carries family) (hcoherent : family.Coherent)
    (hgrounded : family.Grounded) (hcontains : script.operations.contains uid) :
    uid ∈ script.order.uids ∨ ∃ row ∈ script.rows, row.work = some uid := by
  obtain ⟨operation, hfound⟩ := Option.isSome_iff_exists.mp hcontains
  obtain ⟨⟨bundle, rfl, hmem⟩, rfl⟩ := (h.operations _ _).mp hfound
  have hpushed : .operation bundle ∈ family.bundles.map WorkUnit.operation →
      bundle.id ∈ script.order.uids := by
    intro hmem
    obtain ⟨other, hother, heq⟩ := List.mem_map.mp hmem
    obtain rfl := WorkUnit.operation.inj heq
    exact (h.order _).mpr (List.mem_map_of_mem hother)
  have hrun : ∀ part ∈ family.parts, .operation bundle ∈ part.expr.actions →
      ∃ row ∈ script.rows, row.work = some bundle.id := by
    intro part hpart haction
    obtain ⟨c, hc, haction⟩ := Expr.exists_of_mem_actions haction
    exact ⟨c.row, h.mem_rows hcoherent (Family.conditions_subset hpart hc),
      Option.map_eq_some_iff.mpr ⟨_, haction, rfl⟩⟩
  rcases List.mem_append.mp hmem with hmem | hbrought
  · exact .inl (hpushed hmem)
  · obtain ⟨part, hpart, hunit⟩ := List.mem_flatMap.mp hbrought
    rcases Expr.mem_actions_or_outputs hunit with haction | ⟨reference, hreference, heq⟩
    · exact .inr (hrun part hpart haction)
    · rcases hgrounded part hpart reference hreference with hstep | hmem | ⟨other, hother, haction⟩
      · rw [heq] at hstep
        cases hstep
      · exact .inl (hpushed (heq ▸ hmem))
      · exact .inr (hrun other hother (heq ▸ haction))

theorem contains_of_mem_uids (h : script.Carries family) (hmem : uid ∈ script.order.uids) :
    script.operations.contains uid := by
  obtain ⟨bundle, hbundle, rfl⟩ := List.mem_map.mp ((h.order uid).mp hmem)
  have hfound := h.get?_operation (List.mem_append_left _ (List.mem_map_of_mem hbundle))
  simp [Table.contains, hfound]

theorem conditions_contains (h : script.Carries family)
    (hoperation : script.operations.get? uid = some (.conditional operation))
    (hmem : condition ∈ operation.order) : operation.conditions.contains condition := by
  obtain ⟨⟨bundle, heq, hbundle⟩, -⟩ := (h.operations _ _).mp hoperation
  obtain rfl := Operation.conditional.inj heq
  exact (Family.sound hbundle).order condition hmem

/-- A script of what was built together has nothing that a rule could find. -/
theorem wellFormed (h : script.Carries family) (hcoherent : family.Coherent)
    (hgrounded : family.Grounded) : script.WellFormed where
  steps uid hcontains := by
    obtain ⟨step, hstep⟩ := Option.isSome_iff_exists.mp hcontains
    exact any_usesStep_iff.mp (List.any_eq_true.mpr (h.usesStep hcoherent hstep))
  dependencies dependent uids hdeclares uid hmem := by
    cases hdeclares with
    | operation hoperation => simp [h.dependsOn_operation hoperation] at hmem
    | step hstep => simp [h.dependsOn_step hstep] at hmem
  work uid operation condition row hrow work hwork :=
    containsWork_iff.mp (Bool.and_eq_true_iff.mpr
      (h.containsWork hrow.get_operation hrow.get_row hwork))
  operands uid operation condition row hrow owner key hmem :=
    exposes?_eq_some_true_iff.mp (h.exposes? hrow.get_operation hrow.get_row hmem)
  listed uid := h.contains_of_mem_uids
  entered uid := h.reached hcoherent hgrounded
  ordered uid operation hoperation condition := h.conditions_contains hoperation
  conditional uid operation hfound := by
    obtain ⟨⟨bundle, heq, -⟩, -⟩ := (h.operations _ _).mp hfound
    cases heq

theorem isValid (h : script.Carries family) (hcoherent : family.Coherent)
    (hgrounded : family.Grounded) : script.isValid :=
  isValid_iff_wellFormed.mpr (h.wellFormed hcoherent hgrounded)

end Script.Carries

/-- Operations that are built together are valid once they are pushed, in whatever order and however
often, where equal identifiers mean equal work and every operation that is read is pushed or run. -/
theorem Flow.validate_pushAll {family : Family} (hcoherent : family.Coherent)
    (hgrounded : family.Grounded) {order : List Bundle}
    (horder : ∀ bundle, bundle ∈ order ↔ bundle ∈ family.bundles) :
    (pushAll {} order).validate = .ok () :=
  if_pos ((hcoherent.carries_pushAll horder).isValid hcoherent hgrounded)

namespace Family

def balance : Step := Step.ofContent "step_1" (.native .null) 0

def notify : Step := Step.ofContent "step_2" (.native .null) 0

def refund : Step := Step.ofContent "step_3" (.native .null) 0

def opening : OpenBranch :=
  (Bundle.empty "op_1").ifCondition (.compare "cond_1"
    (.output ⟨.step balance, "result", by decide⟩) .greater (.literal (.ofInt 100)))

def further : OpenBranch :=
  (opening.andThen (.step notify)).elifCondition (.negation "cond_2"
    (.output ⟨.step balance, "result", by decide⟩))

def settle : Bundle := (further.andThen (.step refund)).otherwise "cond_3" (.step notify)

def again : Condition :=
  (Condition.compare "cond_4"
    (Condition.precomputed "cond_5" (.output ⟨.step balance, "result", by decide⟩)).expr .and
    (.output ⟨.operation settle, "matched", by decide⟩)).withAction (.operation settle)

def repeated : Bundle := Bundle.ofConditions "op_2" [again]

def report : Condition :=
  .precomputed "cond_6" (.output ⟨.operation repeated, "success", by decide⟩)

def settleParts : List Condition :=
  [opening.pending.withAction (.step notify), further.pending.withAction (.step refund),
    (Condition.otherwise "cond_3").withAction (.step notify)]

def repeatedParts : List Condition := again :: (settleParts ++ settleParts)

/-- Two operations to be pushed. A third one comes along, and is met in two places of each. -/
def sample : Family where
  bundles := [repeated, (Bundle.ofConditions "op_3" [report]).withCritical false]
  parts := repeatedParts ++ report :: repeatedParts
  made := by
    have hbalance : WorkUnit.Made [.step balance] [] := .step (by decide) rfl
    have hnotify : WorkUnit.Made [.step notify] [] := .step (by decide) rfl
    have hrefund : WorkUnit.Made [.step refund] [] := .step (by decide) rfl
    have hopening := WorkUnit.Made.andThen opening (.step notify) (.empty (by decide))
      (.cons hnotify hbalance) (by decide)
    have hfurther := WorkUnit.Made.andThen further (.step refund) hopening
      (.cons hrefund hbalance) (by decide)
    have hsettle : WorkUnit.Made [.operation settle] settleParts :=
      .otherwise _ "cond_3" (.step notify) hfurther hnotify (by decide)
    have hrepeated : WorkUnit.Made [.operation repeated] repeatedParts :=
      .ofConditions "op_2" [(again, settleParts ++ settleParts)] (by decide)
        (List.forall_mem_singleton.mpr ⟨.cons hsettle (.cons hbalance hsettle), by decide⟩)
    have hreport := WorkUnit.Made.ofConditions "op_3" [(report, repeatedParts)] (by decide)
      (List.forall_mem_singleton.mpr ⟨hrepeated, by decide⟩)
    exact .cons hrepeated (.cons (.withCritical false hreport) .nil)

theorem validate_pushAll_sample :
    let pushed := sample.bundles.reverse ++ sample.bundles
    sample.Coherent ∧ sample.Grounded ∧ (∀ bundle, bundle ∈ pushed ↔ bundle ∈ sample.bundles) ∧
      (Flow.pushAll {} pushed).script.operations.keys = ["op_1", "op_2", "op_3"] ∧
      (Flow.pushAll {} pushed).validate = .ok () := by
  intro pushed
  have hcoherent : sample.Coherent := ⟨by decide +kernel, by decide +kernel⟩
  have hgrounded : sample.Grounded := by decide +kernel
  have hpushed : ∀ bundle, bundle ∈ pushed ↔ bundle ∈ sample.bundles := by simp [pushed]
  have hkeys : (Flow.pushAll {} pushed).script.operations.keys = ["op_1", "op_2", "op_3"] := by
    decide +kernel
  exact ⟨hcoherent, hgrounded, hpushed, hkeys, Flow.validate_pushAll hcoherent hgrounded hpushed⟩

end Family

end Workflow
