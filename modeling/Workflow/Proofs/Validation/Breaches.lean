import Workflow.Proofs.Run.Moves
import Workflow.Validation.Rule

set_option autoImplicit false

namespace Workflow

namespace WorkKind

variable {kind other : WorkKind} {uid : Uid}

theorem head?_of_opens (h : kind.opens uid) : uid.toList.head? = kind.opening.toList.head? := by
  obtain ⟨rest, hrest⟩ := List.isPrefixOf_iff_prefix.mp h
  have hne : kind.opening.toList ≠ [] := by cases kind <;> decide
  rw [← hrest, List.head?_append_of_ne_nil _ hne]

theorem eq_of_opens (h : kind.opens uid) (hother : other.opens uid) : kind = other := by
  have heads := (head?_of_opens h).symm.trans (head?_of_opens hother)
  cases kind <;> cases other <;> first | rfl | exact absurd heads (by decide)

theorem opens_of_of? (h : of? uid = some kind) : kind.opens uid := by
  have hfound := List.find?_some h
  exact hfound

theorem opens_iff : kind.opens uid ↔ of? uid = some kind := by
  constructor
  · intro h
    have hmem : kind ∈ all := by cases kind <;> decide
    have hsome : (of? uid).isSome := List.find?_isSome.mpr ⟨kind, hmem, h⟩
    obtain ⟨found, hfound⟩ := Option.isSome_iff_exists.mp hsome
    rw [hfound, eq_of_opens (opens_of_of? hfound) h]
  · exact opens_of_of?

end WorkKind

theorem Uid.isWork_iff {uid : Uid} :
    uid.isWork ↔ WorkKind.step.opens uid ∨ WorkKind.operation.opens uid := by
  rw [WorkKind.opens_iff, WorkKind.opens_iff]
  unfold Uid.isWork
  split <;> simp_all

namespace Operand

/-- The key names the field below `output`, or something below that field. -/
def Names (key field : String) : Prop :=
  '.' ∉ field.toList ∧
    (key = "output." ++ field ∨ ∃ rest, key = "output." ++ field ++ "." ++ rest)

variable {key field : String}

theorem outputHead_of_toList {below : List Char} (h : key.toList = "output.".toList ++ below) :
    outputHead key = String.ofList (below.takeWhile (· ≠ '.')) := by
  have hopens : "output.".toList.isPrefixOf key.toList :=
    List.isPrefixOf_iff_prefix.mpr ⟨below, h.symm⟩
  simp only [outputHead, hopens, if_true]
  rw [h, List.drop_left]

theorem exists_below (h : outputHead key ≠ "") :
    ∃ below, key.toList = "output.".toList ++ below := by
  by_cases hopens : "output.".toList.isPrefixOf key.toList
  · obtain ⟨below, hbelow⟩ := List.isPrefixOf_iff_prefix.mp hopens
    exact ⟨below, hbelow.symm⟩
  · simp only [outputHead, if_neg hopens] at h
    exact absurd rfl h

theorem exists_cut (below : List Char) :
    ∃ field rest, below = field ++ rest ∧ '.' ∉ field ∧
      (rest = [] ∨ ∃ more, rest = '.' :: more) := by
  induction below with
  | nil => exact ⟨[], [], rfl, by simp, .inl rfl⟩
  | cons c below ih =>
    by_cases hc : c = '.'
    · exact ⟨[], c :: below, rfl, by simp, .inr ⟨below, by rw [hc]⟩⟩
    · obtain ⟨field, rest, rfl, hdot, hrest⟩ := ih
      have hfield : '.' ∉ c :: field := by simp [Ne.symm hc, hdot]
      exact ⟨c :: field, rest, rfl, hfield, hrest⟩

theorem takeWhile_of_cut {field rest : List Char} (hdot : '.' ∉ field)
    (hrest : rest = [] ∨ ∃ more, rest = '.' :: more) :
    (field ++ rest).takeWhile (· ≠ '.') = field := by
  have hkept : ∀ c ∈ field, decide (c ≠ '.') = true := by
    intro c hc
    have hne : c ≠ '.' := fun heq => hdot (heq ▸ hc)
    simpa using hne
  rw [List.takeWhile_append_of_pos hkept]
  rcases hrest with rfl | ⟨more, rfl⟩ <;> simp

theorem Names.outputHead_eq (h : Names key field) : outputHead key = field := by
  obtain ⟨hdot, hkey⟩ := h
  have hlist : ∃ rest, key.toList = "output.".toList ++ (field.toList ++ rest) ∧
      (rest = [] ∨ ∃ more, rest = '.' :: more) := by
    rcases hkey with rfl | ⟨rest, rfl⟩
    · exact ⟨[], by simp, .inl rfl⟩
    · exact ⟨'.' :: rest.toList, by simp, .inr ⟨_, rfl⟩⟩
  obtain ⟨rest, hlist, hrest⟩ := hlist
  rw [outputHead_of_toList hlist, takeWhile_of_cut hdot hrest, String.ofList_toList]

theorem names_outputHead (h : outputHead key ≠ "") : Names key (outputHead key) := by
  obtain ⟨below, hbelow⟩ := exists_below h
  obtain ⟨field, rest, rfl, hdot, hrest⟩ := exists_cut below
  rw [outputHead_of_toList hbelow, takeWhile_of_cut hdot hrest]
  refine ⟨by rwa [String.toList_ofList], ?_⟩
  rcases hrest with rfl | ⟨more, rfl⟩
  · exact .inl (String.toList_inj.mp (by simp [hbelow]))
  · exact .inr ⟨String.ofList more, String.toList_inj.mp (by simp [hbelow])⟩

end Operand

theorem ConditionRow.mem_owners_iff {row : ConditionRow} {owner : Uid} :
    owner ∈ row.owners ↔ ∃ key, .internal owner key ∈ row.operands := by
  constructor
  · intro h
    obtain ⟨operand, hmem, howner⟩ := List.mem_filterMap.mp h
    cases operand with
    | static value => cases howner
    | internal found key =>
      cases howner
      exact ⟨key, hmem⟩
  · exact fun ⟨_, hmem⟩ => mem_owners hmem

def ConditionRow.at (row : ConditionRow) : Side → Option Operand
  | .left => row.left
  | .right => row.right

theorem ConditionRow.mem_operands_iff {row : ConditionRow} {operand : Operand} :
    operand ∈ row.operands ↔ ∃ side, row.at side = some operand := by
  constructor
  · intro h
    rcases List.mem_append.mp h with h | h
    · exact ⟨.left, Option.mem_toList.mp h⟩
    · exact ⟨.right, Option.mem_toList.mp h⟩
  · rintro ⟨side, h⟩
    cases side with
    | left => exact mem_operands_of_left h
    | right => exact mem_operands_of_right h

namespace Script

def Uses (script : Script) (uid : Uid) : Prop :=
  ∃ row ∈ script.rows, row.work = some uid ∨ ∃ key, .internal uid key ∈ row.operands

def HasWork (script : Script) (uid : Uid) : Prop :=
  WorkKind.step.opens uid ∧ script.steps.contains uid ∨
    WorkKind.operation.opens uid ∧ script.operations.contains uid

/-- What conditions of the operation may read: each other, and all steps and operations. -/
def HasOwner (script : Script) (operation : Conditional) (owner : Uid) : Prop :=
  WorkKind.condition.opens owner ∧ operation.conditions.contains owner ∨ script.HasWork owner

inductive Gives (script : Script) (operation : Conditional) (owner : Uid) (key : String) : Prop
  | condition : WorkKind.condition.opens owner → operation.conditions.contains owner →
      key = "output.result" → Gives script operation owner key
  | step {step : Step} {field : String} : WorkKind.step.opens owner →
      script.steps.get? owner = some step → field ∈ step.kind.outputKeys →
      Operand.Names key field → Gives script operation owner key
  | operation {field : String} : WorkKind.operation.opens owner →
      script.operations.contains owner → field ∈ Conditional.outputKeys →
      Operand.Names key field → Gives script operation owner key

inductive Declares (script : Script) : Dependent → List Uid → Prop
  | operation {uid : Uid} {operation : Operation} :
      script.operations.get? uid = some operation →
      Declares script (.operation uid) operation.dependsOn
  | step {uid : Uid} {step : Step} : script.steps.get? uid = some step →
      Declares script (.step uid (step.description.getD uid)) step.dependsOn

/-- What is wrong with a script, each time with the place at which it is. -/
inductive Breaks (script : Script) : Issue → Prop
  | unusedStep {uid : Uid} {step : Step} : script.steps.get? uid = some step →
      ¬ (WorkKind.step.opens uid ∧ script.Uses uid) →
      Breaks script (.unusedStep uid (step.description.getD uid))
  | invalidDependency {dependent : Dependent} {uids : List Uid} {i : Nat} {uid : Uid} :
      script.Declares dependent uids → uids[i]? = some uid →
      ¬ (WorkKind.step.opens uid ∨ WorkKind.operation.opens uid) →
      Breaks script (.invalidDependency dependent i uid)
  | missingDependency {dependent : Dependent} {uids : List Uid} {i : Nat} {uid : Uid} :
      script.Declares dependent uids → uids[i]? = some uid →
      ¬ (script.steps.contains uid ∨ script.operations.contains uid) →
      Breaks script (.missingDependency dependent i uid)
  | danglingWork {uid condition work : Uid} {operation : Conditional} {row : ConditionRow} :
      script.HasRow uid operation condition row → row.work = some work → ¬ script.HasWork work →
      Breaks script (.danglingWork uid condition work)
  | danglingOperand {uid condition owner : Uid} {operation : Conditional} {row : ConditionRow}
      {side : Side} {key : String} :
      script.HasRow uid operation condition row → row.at side = some (.internal owner key) →
      ¬ script.HasOwner operation owner →
      Breaks script (.danglingOperand ⟨uid, operation.id, condition, side⟩ owner)
  | unknownField {uid condition owner : Uid} {operation : Conditional} {row : ConditionRow}
      {side : Side} {key : String} :
      script.HasRow uid operation condition row → row.at side = some (.internal owner key) →
      script.HasOwner operation owner → ¬ script.Gives operation owner key →
      Breaks script (.unknownField ⟨uid, operation.id, condition, side⟩ owner key)
  | missingOperation {i : Nat} {uid : Uid} : script.order.uids[i]? = some uid →
      ¬ script.operations.contains uid → Breaks script (.missingOperation i uid)
  | unreachableOperation {uid : Uid} : script.operations.contains uid →
      ¬ (uid ∈ script.order.uids ∨ ∃ row ∈ script.rows, row.work = some uid) →
      Breaks script (.unreachableOperation uid)
  | missingCondition {uid condition : Uid} {operation : Conditional} {i : Nat} :
      script.operations.get? uid = some (.conditional operation) →
      operation.order[i]? = some condition → ¬ operation.conditions.contains condition →
      Breaks script (.missingCondition uid i condition)
  | unsupportedOperation {uid : Uid} {operation : Unsupported} :
      script.operations.get? uid = some (.unsupported operation) →
      Breaks script (.unsupportedOperation uid operation.type)

variable {script : Script} {operation : Conditional} {uid owner : Uid} {key : String}

theorem any_usesStep_iff :
    script.rows.any (Rule.usesStep uid) ↔ WorkKind.step.opens uid ∧ script.Uses uid := by
  simp only [List.any_eq_true, Rule.usesStep, Bool.and_eq_true, decide_eq_true_eq, List.mem_append,
    Option.mem_toList, ConditionRow.mem_owners_iff, WorkKind.opens_iff, Uses]
  constructor
  · rintro ⟨row, hrow, hkind, huses⟩
    exact ⟨hkind, row, hrow, huses⟩
  · rintro ⟨hkind, row, hrow, huses⟩
    exact ⟨row, hrow, hkind, huses⟩

theorem containsWork_iff : (uid.isWork && script.containsWork uid) ↔ script.HasWork uid := by
  rw [Bool.and_eq_true, HasWork, WorkKind.opens_iff, WorkKind.opens_iff]
  unfold Uid.isWork containsWork
  cases hkind : WorkKind.of? uid with
  | none => simp
  | some kind => cases kind <;> simp

theorem exposes?_eq_none_iff :
    Rule.exposes? script operation owner key = none ↔ ¬ script.HasOwner operation owner := by
  simp only [HasOwner, HasWork, WorkKind.opens_iff]
  unfold Rule.exposes?
  cases hkind : WorkKind.of? owner with
  | none => simp
  | some kind =>
    cases kind with
    | condition => cases operation.conditions.contains owner <;> simp
    | step => simp [Table.contains]
    | operation => simp

theorem names_of_mem {fields : List String} (hfields : "" ∉ fields)
    (h : Operand.outputHead key ∈ fields) : Operand.Names key (Operand.outputHead key) :=
  Operand.names_outputHead fun hempty => hfields (hempty ▸ h)

theorem exposes?_eq_some_true_iff :
    Rule.exposes? script operation owner key = some true ↔ script.Gives operation owner key := by
  constructor
  · intro h
    unfold Rule.exposes? at h
    split at h
    case h_1 hkind =>
      split at h
      case isTrue hcontains =>
        have hkey : key = Operand.conditionKey := by simpa using h
        exact .condition (WorkKind.opens_iff.mpr hkind) hcontains hkey
      case isFalse => cases h
    case h_2 hkind =>
      obtain ⟨step, hstep, hmem⟩ := Option.map_eq_some_iff.mp h
      have hmem : Operand.outputHead key ∈ step.kind.outputKeys := by simpa using hmem
      have hfields : "" ∉ step.kind.outputKeys := by cases step.kind <;> decide
      exact .step (WorkKind.opens_iff.mpr hkind) hstep hmem (names_of_mem hfields hmem)
    case h_3 hkind =>
      split at h
      case isTrue hcontains =>
        have hmem : Operand.outputHead key ∈ Conditional.outputKeys := by simpa using h
        exact .operation (WorkKind.opens_iff.mpr hkind) hcontains hmem
          (names_of_mem (by decide) hmem)
      case isFalse => cases h
    case h_4 => cases h
  · intro h
    cases h with
    | condition hopens hcontains hkey =>
      simp [Rule.exposes?, WorkKind.opens_iff.mp hopens, hcontains, hkey, Operand.conditionKey]
    | step hopens hstep hmem hnames =>
      simp [Rule.exposes?, WorkKind.opens_iff.mp hopens, hstep, hnames.outputHead_eq, hmem]
    | operation hopens hcontains hmem hnames =>
      simp [Rule.exposes?, WorkKind.opens_iff.mp hopens, hcontains, hnames.outputHead_eq, hmem]

variable {issue : Issue}

theorem mem_brokenDependencies_iff {dependent : Dependent} {uids : List Uid} :
    issue ∈ Rule.brokenDependencies script dependent uids ↔ ∃ i uid, uids[i]? = some uid ∧
      (¬ (WorkKind.step.opens uid ∨ WorkKind.operation.opens uid) ∧
          issue = .invalidDependency dependent i uid ∨
        ¬ (script.steps.contains uid ∨ script.operations.contains uid) ∧
          issue = .missingDependency dependent i uid) := by
  simp only [Rule.brokenDependencies, List.mem_flatMap, Prod.exists, List.mem_zipIdx_iff_getElem?,
    List.mem_append, ← Uid.isWork_iff]
  rw [exists_comm]
  refine exists_congr fun i => exists_congr fun uid => and_congr_right fun _ => or_congr ?_ ?_
  · cases uid.isWork <;> simp
  · cases script.steps.contains uid <;> cases script.operations.contains uid <;> simp

theorem mem_brokenWork_iff {condition : Uid} {work : Option Uid} :
    issue ∈ Rule.brokenWork script uid condition work ↔ ∃ found, work = some found ∧
      ¬ script.HasWork found ∧ issue = .danglingWork uid condition found := by
  cases work with
  | none => simp [Rule.brokenWork]
  | some found =>
    simp only [Rule.brokenWork, Option.some.injEq, exists_eq_left', ← containsWork_iff]
    cases found.isWork && script.containsWork found <;> simp

theorem mem_brokenOperand_iff {place : OperandPlace} {operand : Option Operand} :
    issue ∈ Rule.brokenOperand script operation place operand ↔
      ∃ owner key, operand = some (.internal owner key) ∧
        (¬ script.HasOwner operation owner ∧ issue = .danglingOperand place owner ∨
          script.HasOwner operation owner ∧ ¬ script.Gives operation owner key ∧
            issue = .unknownField place owner key) := by
  match operand with
  | none => simp [Rule.brokenOperand]
  | some (.static value) => simp [Rule.brokenOperand]
  | some (.internal owner key) =>
    simp only [Rule.brokenOperand, ← exposes?_eq_some_true_iff]
    have howner : Rule.exposes? script operation owner key = none ↔
        ¬ script.HasOwner operation owner := exposes?_eq_none_iff
    rcases hexposed : Rule.exposes? script operation owner key with _ | _ | _
    all_goals simp [hexposed] at howner
    all_goals simp [hexposed, howner]

theorem mem_unusedSteps_iff : issue ∈ Rule.unusedSteps script ↔ ∃ uid step,
    script.steps.get? uid = some step ∧ ¬ (WorkKind.step.opens uid ∧ script.Uses uid) ∧
      issue = .unusedStep uid (step.description.getD uid) := by
  simp only [Rule.unusedSteps, List.mem_filterMap, Prod.exists, Table.get?_eq_some_iff,
    ← any_usesStep_iff]
  refine exists_congr fun uid => exists_congr fun step => and_congr_right fun _ => ?_
  cases script.rows.any (Rule.usesStep uid) <;> simp [eq_comm]

theorem mem_dependencyIssues_iff : issue ∈ Rule.dependencyIssues script ↔
    ∃ dependent uids, script.Declares dependent uids ∧
      issue ∈ Rule.brokenDependencies script dependent uids := by
  simp only [Rule.dependencyIssues, List.mem_append, List.mem_flatMap, Prod.exists,
    ← Table.get?_eq_some_iff]
  constructor
  · rintro (⟨uid, operation, hget, hmem⟩ | ⟨uid, step, hget, hmem⟩)
    · exact ⟨_, _, .operation hget, hmem⟩
    · exact ⟨_, _, .step hget, hmem⟩
  · rintro ⟨dependent, uids, hdeclares, hmem⟩
    cases hdeclares with
    | operation hget => exact .inl ⟨_, _, hget, hmem⟩
    | step hget => exact .inr ⟨_, _, hget, hmem⟩

theorem mem_brokenReferences_iff {uid condition : Uid} {operation : Conditional}
    {row : ConditionRow} :
    issue ∈ Rule.brokenReferences script uid operation condition row ↔
      issue ∈ Rule.brokenWork script uid condition row.work ∨
        ∃ side, issue ∈ Rule.brokenOperand script operation ⟨uid, operation.id, condition, side⟩
          (row.at side) := by
  simp only [Rule.brokenReferences, List.mem_append, or_assoc]
  refine or_congr_right ⟨?_, ?_⟩
  · rintro (h | h)
    · exact ⟨.left, h⟩
    · exact ⟨.right, h⟩
  · rintro ⟨side, h⟩
    cases side with
    | left => exact .inl h
    | right => exact .inr h

theorem mem_referenceIssues_iff : issue ∈ Rule.referenceIssues script ↔
    ∃ uid operation condition row, script.HasRow uid operation condition row ∧
      issue ∈ Rule.brokenReferences script uid operation condition row := by
  simp only [Rule.referenceIssues, List.mem_flatMap, Prod.exists, mem_conditionals_iff,
    ← Table.get?_eq_some_iff]
  constructor
  · rintro ⟨uid, operation, hoperation, condition, row, hrow, hmem⟩
    exact ⟨uid, operation, condition, row, ⟨hoperation, hrow⟩, hmem⟩
  · rintro ⟨uid, operation, condition, row, hrow, hmem⟩
    exact ⟨uid, operation, hrow.get_operation, condition, row, hrow.get_row, hmem⟩

theorem mem_orderIssues_iff : issue ∈ Rule.orderIssues script ↔
    (∃ i uid, script.order.uids[i]? = some uid ∧ ¬ script.operations.contains uid ∧
      issue = .missingOperation i uid) ∨
    (∃ uid, script.operations.contains uid ∧
      ¬ (uid ∈ script.order.uids ∨ ∃ row ∈ script.rows, row.work = some uid) ∧
      issue = .unreachableOperation uid) ∨
    ∃ uid operation i condition, script.operations.get? uid = some (.conditional operation) ∧
      operation.order[i]? = some condition ∧ ¬ operation.conditions.contains condition ∧
      issue = .missingCondition uid i condition := by
  simp only [Rule.orderIssues, List.mem_append, or_assoc, List.mem_filterMap, List.mem_flatMap,
    Prod.exists, List.mem_zipIdx_iff_getElem?, mem_conditionals_iff, Table.mem_keys_iff]
  refine or_congr ?_ (or_congr ?_ ?_)
  · rw [exists_comm]
    refine exists_congr fun i => exists_congr fun uid => and_congr_right fun _ => ?_
    cases script.operations.contains uid <;> simp [eq_comm]
  · refine exists_congr fun uid => and_congr_right fun _ => ?_
    have hkept : (script.order.contains uid || script.rows.any fun row => row.work = some uid) ↔
        uid ∈ script.order.uids ∨ ∃ row ∈ script.rows, row.work = some uid := by
      simp [OperationOrder.contains]
    rw [← hkept]
    cases script.order.contains uid || script.rows.any fun row => row.work = some uid <;>
      simp [eq_comm]
  · refine exists_congr fun uid => exists_congr fun operation => ?_
    constructor
    · rintro ⟨hoperation, condition, i, horder, hissue⟩
      refine ⟨i, condition, hoperation, horder, ?_⟩
      cases hcontains : operation.conditions.contains condition <;> simp_all
    · rintro ⟨i, condition, hoperation, horder, hcontains, rfl⟩
      exact ⟨hoperation, condition, i, horder, if_neg hcontains⟩

theorem mem_kindIssues_iff : issue ∈ Rule.kindIssues script ↔ ∃ uid operation,
    script.operations.get? uid = some (.unsupported operation) ∧
      issue = .unsupportedOperation uid operation.type := by
  simp only [Rule.kindIssues, List.mem_filterMap, Prod.exists, ← Table.get?_eq_some_iff]
  constructor
  · rintro ⟨uid, operation, hget, hissue⟩
    cases operation with
    | conditional operation => cases hissue
    | unsupported operation =>
      cases hissue
      exact ⟨uid, operation, hget, rfl⟩
  · rintro ⟨uid, operation, hget, rfl⟩
    exact ⟨uid, .unsupported operation, hget, rfl⟩

theorem mem_issues_iff_exists :
    issue ∈ script.issues ↔ ∃ rule : Rule, issue ∈ rule.check script := by
  simp only [issues, check, List.mem_flatMap]
  refine exists_congr fun rule => and_iff_right ?_
  cases rule <;> decide

theorem breaks_of_mem_check {rule : Rule} (h : issue ∈ rule.check script) :
    script.Breaks issue := by
  cases rule with
  | usedSteps =>
    obtain ⟨uid, step, hget, hunused, rfl⟩ := mem_unusedSteps_iff.mp h
    exact .unusedStep hget hunused
  | dependencies =>
    obtain ⟨dependent, uids, hdeclares, hmem⟩ := mem_dependencyIssues_iff.mp h
    obtain ⟨i, uid, hi, ⟨hkind, rfl⟩ | ⟨hcontains, rfl⟩⟩ := mem_brokenDependencies_iff.mp hmem
    · exact .invalidDependency hdeclares hi hkind
    · exact .missingDependency hdeclares hi hcontains
  | references =>
    obtain ⟨uid, operation, condition, row, hrow, hmem⟩ := mem_referenceIssues_iff.mp h
    obtain hmem | ⟨side, hmem⟩ := mem_brokenReferences_iff.mp hmem
    · obtain ⟨work, hwork, hnone, rfl⟩ := mem_brokenWork_iff.mp hmem
      exact .danglingWork hrow hwork hnone
    · obtain ⟨owner, key, hat, ⟨hnone, rfl⟩ | ⟨howner, hgives, rfl⟩⟩ :=
        mem_brokenOperand_iff.mp hmem
      · exact .danglingOperand hrow hat hnone
      · exact .unknownField hrow hat howner hgives
  | order =>
    obtain ⟨i, uid, hi, hcontains, rfl⟩ | ⟨uid, hcontains, hnot, rfl⟩ |
      ⟨uid, operation, i, condition, hget, hi, hcontains, rfl⟩ := mem_orderIssues_iff.mp h
    · exact .missingOperation hi hcontains
    · exact .unreachableOperation hcontains hnot
    · exact .missingCondition hget hi hcontains
  | operationKind =>
    obtain ⟨uid, operation, hget, rfl⟩ := mem_kindIssues_iff.mp h
    exact .unsupportedOperation hget

theorem Breaks.mem_issues (h : script.Breaks issue) : issue ∈ script.issues := by
  rw [mem_issues_iff_exists]
  cases h with
  | unusedStep hget hunused =>
    exact ⟨.usedSteps, mem_unusedSteps_iff.mpr ⟨_, _, hget, hunused, rfl⟩⟩
  | invalidDependency hdeclares hi hkind =>
    refine ⟨.dependencies, mem_dependencyIssues_iff.mpr ⟨_, _, hdeclares, ?_⟩⟩
    exact mem_brokenDependencies_iff.mpr ⟨_, _, hi, .inl ⟨hkind, rfl⟩⟩
  | missingDependency hdeclares hi hcontains =>
    refine ⟨.dependencies, mem_dependencyIssues_iff.mpr ⟨_, _, hdeclares, ?_⟩⟩
    exact mem_brokenDependencies_iff.mpr ⟨_, _, hi, .inr ⟨hcontains, rfl⟩⟩
  | danglingWork hrow hwork hnone =>
    refine ⟨.references, mem_referenceIssues_iff.mpr ⟨_, _, _, _, hrow, ?_⟩⟩
    exact mem_brokenReferences_iff.mpr (.inl (mem_brokenWork_iff.mpr ⟨_, hwork, hnone, rfl⟩))
  | danglingOperand hrow hat hnone =>
    refine ⟨.references, mem_referenceIssues_iff.mpr ⟨_, _, _, _, hrow, ?_⟩⟩
    exact mem_brokenReferences_iff.mpr
      (.inr ⟨_, mem_brokenOperand_iff.mpr ⟨_, _, hat, .inl ⟨hnone, rfl⟩⟩⟩)
  | unknownField hrow hat howner hgives =>
    refine ⟨.references, mem_referenceIssues_iff.mpr ⟨_, _, _, _, hrow, ?_⟩⟩
    exact mem_brokenReferences_iff.mpr
      (.inr ⟨_, mem_brokenOperand_iff.mpr ⟨_, _, hat, .inr ⟨howner, hgives, rfl⟩⟩⟩)
  | missingOperation hi hcontains =>
    exact ⟨.order, mem_orderIssues_iff.mpr (.inl ⟨_, _, hi, hcontains, rfl⟩)⟩
  | unreachableOperation hcontains hnot =>
    exact ⟨.order, mem_orderIssues_iff.mpr (.inr (.inl ⟨_, hcontains, hnot, rfl⟩))⟩
  | missingCondition hget hi hcontains =>
    exact ⟨.order, mem_orderIssues_iff.mpr (.inr (.inr ⟨_, _, _, _, hget, hi, hcontains, rfl⟩))⟩
  | unsupportedOperation hget =>
    exact ⟨.operationKind, mem_kindIssues_iff.mpr ⟨_, _, hget, rfl⟩⟩

theorem mem_issues_iff : issue ∈ script.issues ↔ script.Breaks issue := by
  constructor
  · intro h
    obtain ⟨rule, hmem⟩ := mem_issues_iff_exists.mp h
    exact breaks_of_mem_check hmem
  · exact Breaks.mem_issues

end Script

end Workflow
