import Mathlib.Data.List.Nodup
import Workflow.Proofs.Validation.Breaches

/-!
No breach is told twice. And a script without any is well formed, which is said here without the
rules of validation. Main statement: validation accepts the well-formed scripts, and of others it
tells every breach once and nothing else.
-/

set_option autoImplicit false

namespace Workflow

namespace Issue

def rule : Issue → Rule
  | .unusedStep .. => .usedSteps
  | .invalidDependency .. | .missingDependency .. => .dependencies
  | .danglingWork .. | .danglingOperand .. | .unknownField .. => .references
  | .missingOperation .. | .unreachableOperation .. | .missingCondition .. => .order
  | .unsupportedOperation .. => .operationKind

def dependent? : Issue → Option Dependent
  | .invalidDependency dependent .. | .missingDependency dependent .. => some dependent
  | _ => none

def row? : Issue → Option (Uid × Uid)
  | .danglingWork operation condition _ => some (operation, condition)
  | .danglingOperand place _ | .unknownField place .. => some (place.operation, place.condition)
  | _ => none

def side? : Issue → Option Side
  | .danglingOperand place _ | .unknownField place .. => some place.side
  | _ => none

end Issue

namespace Script

variable {script : Script} {issue : Issue}

theorem rule_eq_of_mem_check {rule : Rule} (h : issue ∈ rule.check script) : issue.rule = rule := by
  cases rule with
  | usedSteps =>
    obtain ⟨_, _, _, _, rfl⟩ := mem_unusedSteps_iff.mp h
    rfl
  | dependencies =>
    obtain ⟨_, _, _, hmem⟩ := mem_dependencyIssues_iff.mp h
    obtain ⟨_, _, _, ⟨_, rfl⟩ | ⟨_, rfl⟩⟩ := mem_brokenDependencies_iff.mp hmem <;> rfl
  | references =>
    obtain ⟨_, _, _, _, _, hmem⟩ := mem_referenceIssues_iff.mp h
    obtain hmem | ⟨_, hmem⟩ := mem_brokenReferences_iff.mp hmem
    · obtain ⟨_, _, _, rfl⟩ := mem_brokenWork_iff.mp hmem
      rfl
    · obtain ⟨_, _, _, ⟨_, rfl⟩ | ⟨_, _, rfl⟩⟩ := mem_brokenOperand_iff.mp hmem <;> rfl
  | order =>
    obtain ⟨_, _, _, _, rfl⟩ | ⟨_, _, _, rfl⟩ | ⟨_, _, _, _, _, _, _, rfl⟩ :=
      mem_orderIssues_iff.mp h <;> rfl
  | operationKind =>
    obtain ⟨_, _, _, rfl⟩ := mem_kindIssues_iff.mp h
    rfl

theorem dependent?_eq {dependent : Dependent} {uids : List Uid}
    (h : issue ∈ Rule.brokenDependencies script dependent uids) :
    issue.dependent? = some dependent := by
  obtain ⟨_, _, _, ⟨_, rfl⟩ | ⟨_, rfl⟩⟩ := mem_brokenDependencies_iff.mp h <;> rfl

theorem side?_eq {operation : Conditional} {place : OperandPlace} {operand : Option Operand}
    (h : issue ∈ Rule.brokenOperand script operation place operand) :
    issue.side? = some place.side := by
  obtain ⟨_, _, _, ⟨_, rfl⟩ | ⟨_, _, rfl⟩⟩ := mem_brokenOperand_iff.mp h <;> rfl

theorem row?_eq {uid condition : Uid} {operation : Conditional} {row : ConditionRow}
    (h : issue ∈ Rule.brokenReferences script uid operation condition row) :
    issue.row? = some (uid, condition) := by
  obtain hmem | ⟨_, hmem⟩ := mem_brokenReferences_iff.mp h
  · obtain ⟨_, _, _, rfl⟩ := mem_brokenWork_iff.mp hmem
    rfl
  · obtain ⟨_, _, _, ⟨_, rfl⟩ | ⟨_, _, rfl⟩⟩ := mem_brokenOperand_iff.mp hmem <;> rfl

theorem nodup_flatMap_of_place {α β γ : Type} {as : List α} {found : α → List β} (place : α → γ)
    (hplaces : (as.map place).Nodup) (hnodup : ∀ a ∈ as, (found a).Nodup)
    (hsame : ∀ a b issue, issue ∈ found a → issue ∈ found b → place a = place b) :
    (as.flatMap found).Nodup := by
  rw [List.nodup_flatMap]
  refine ⟨hnodup, ?_⟩
  have hapart : as.Pairwise fun a b => place a ≠ place b := List.pairwise_map.mp hplaces
  exact hapart.imp fun hne issue ha hb => hne (hsame _ _ issue ha hb)

theorem nodup_filterMap_of_place {α β γ : Type} {as : List α} {found : α → Option β} (place : α → γ)
    (hplaces : (as.map place).Nodup)
    (hsame : ∀ a b issue, found a = some issue → found b = some issue → place a = place b) :
    (as.filterMap found).Nodup := by
  rw [List.filterMap_eq_flatMap_toList]
  refine nodup_flatMap_of_place place hplaces (fun a _ => ?_) fun a b issue ha hb => ?_
  · cases found a <;> simp
  · exact hsame a b issue (Option.mem_toList.mp ha) (Option.mem_toList.mp hb)

theorem nodup_filterMap_unless {α γ : Type} {as : List α} (place : α → γ) (passes : α → Prop)
    [DecidablePred passes] (told : α → Issue) (hplaces : (as.map place).Nodup)
    (htold : ∀ a b, told a = told b → place a = place b) :
    (as.filterMap fun a => if passes a then none else some (told a)).Nodup := by
  refine nodup_filterMap_of_place place hplaces fun a b issue ha hb => htold a b ?_
  simp only [Option.ite_none_left_eq_some, Option.some.injEq] at ha hb
  exact ha.2.trans hb.2.symm

theorem exists_told_of_mem {α : Type} {as : List α} {passes : α → Prop} [DecidablePred passes]
    {told : α → Issue} {issue : Issue}
    (h : issue ∈ as.filterMap fun a => if passes a then none else some (told a)) :
    ∃ a, told a = issue := by
  obtain ⟨a, -, hfound⟩ := List.mem_filterMap.mp h
  simp only [Option.ite_none_left_eq_some, Option.some.injEq] at hfound
  exact ⟨a, hfound.2⟩

theorem nodup_map_snd_zipIdx {α : Type} (as : List α) : (as.zipIdx.map Prod.snd).Nodup := by
  rw [List.zipIdx_map_snd]
  exact List.nodup_range'

theorem nodup_map_fst_conditionals (script : Script) :
    (script.conditionals.map Prod.fst).Nodup := by
  have hentries : script.operations.entries.Pairwise fun a b => a.1 ≠ b.1 :=
    List.pairwise_map.mp script.operations.nodup_keys
  refine List.pairwise_map.mpr (hentries.filterMap _ ?_)
  intro entry other hne found hfound second hsecond
  obtain ⟨_, _, rfl⟩ := Option.map_eq_some_iff.mp hfound
  obtain ⟨_, _, rfl⟩ := Option.map_eq_some_iff.mp hsecond
  exact hne

theorem nodup_unusedSteps : (Rule.unusedSteps script).Nodup := by
  refine nodup_filterMap_unless Prod.fst _ (fun entry => .unusedStep entry.1 _)
    script.steps.nodup_keys fun entry other heq => ?_
  injection heq

theorem nodup_brokenDependencies {dependent : Dependent} {uids : List Uid} :
    (Rule.brokenDependencies script dependent uids).Nodup := by
  refine nodup_flatMap_of_place Prod.snd (nodup_map_snd_zipIdx uids) ?_ ?_
  · rintro ⟨uid, i⟩ -
    refine List.Nodup.append ?_ ?_ ?_
    · split <;> simp
    · split <;> simp
    · split <;> split <;> simp
  · rintro ⟨uid, i⟩ ⟨other, j⟩ issue h hother
    simp only [List.mem_append] at h hother
    rcases h with h | h <;> rcases hother with hother | hother
    all_goals split at h <;> split at hother <;> simp_all

theorem nodup_dependencyIssues : (Rule.dependencyIssues script).Nodup := by
  refine List.Nodup.append ?_ ?_ ?_
  · refine nodup_flatMap_of_place Prod.fst script.operations.nodup_keys
      (fun _ _ => nodup_brokenDependencies) fun entry other issue h hother => ?_
    have heq := (dependent?_eq h).symm.trans (dependent?_eq hother)
    injection heq with heq
    injection heq
  · refine nodup_flatMap_of_place Prod.fst script.steps.nodup_keys
      (fun _ _ => nodup_brokenDependencies) fun entry other issue h hother => ?_
    have heq := (dependent?_eq h).symm.trans (dependent?_eq hother)
    injection heq with heq
    injection heq
  · intro issue h hother
    obtain ⟨_, _, hmem⟩ := List.mem_flatMap.mp h
    obtain ⟨_, _, hother⟩ := List.mem_flatMap.mp hother
    have heq := (dependent?_eq hmem).symm.trans (dependent?_eq hother)
    injection heq with heq
    cases heq

theorem nodup_brokenWork {uid condition : Uid} {work : Option Uid} :
    (Rule.brokenWork script uid condition work).Nodup := by
  cases work with
  | none => exact List.nodup_nil
  | some work =>
    rw [Rule.brokenWork]
    split <;> simp

theorem nodup_brokenOperand {operation : Conditional} {place : OperandPlace}
    {operand : Option Operand} : (Rule.brokenOperand script operation place operand).Nodup := by
  unfold Rule.brokenOperand
  split
  · split <;> simp
  · exact List.nodup_nil

theorem nodup_brokenReferences {uid condition : Uid} {operation : Conditional}
    {row : ConditionRow} :
    (Rule.brokenReferences script uid operation condition row).Nodup := by
  rw [Rule.brokenReferences, List.append_assoc]
  refine nodup_brokenWork.append (nodup_brokenOperand.append nodup_brokenOperand ?_) ?_
  · intro issue hleft hright
    have heq := (side?_eq hleft).symm.trans (side?_eq hright)
    cases heq
  · intro issue hwork hoperand
    obtain ⟨_, _, _, rfl⟩ := mem_brokenWork_iff.mp hwork
    rcases List.mem_append.mp hoperand with h | h <;> cases side?_eq h

theorem nodup_referenceIssues : (Rule.referenceIssues script).Nodup := by
  refine nodup_flatMap_of_place Prod.fst (nodup_map_fst_conditionals script) ?_ ?_
  · rintro ⟨uid, operation⟩ -
    refine nodup_flatMap_of_place Prod.fst operation.conditions.nodup_keys
      (fun _ _ => nodup_brokenReferences) fun entry other issue h hother => ?_
    have heq := (row?_eq h).symm.trans (row?_eq hother)
    injection heq with heq
    injection heq
  · rintro entry other issue h hother
    obtain ⟨_, _, hmem⟩ := List.mem_flatMap.mp h
    obtain ⟨_, _, hother⟩ := List.mem_flatMap.mp hother
    have heq := (row?_eq hmem).symm.trans (row?_eq hother)
    injection heq with heq
    injection heq

theorem nodup_orderIssues : (Rule.orderIssues script).Nodup := by
  rw [Rule.orderIssues, List.append_assoc]
  refine List.Nodup.append ?_ (List.Nodup.append ?_ ?_ ?_) ?_
  · refine nodup_filterMap_unless Prod.snd _ (fun entry => .missingOperation entry.2 entry.1)
      (nodup_map_snd_zipIdx script.order.uids) fun entry other heq => ?_
    injection heq
  · refine nodup_filterMap_unless id _ (fun uid => .unreachableOperation uid)
      (by rw [List.map_id]; exact script.operations.nodup_keys) fun uid other heq => ?_
    injection heq
  · refine nodup_flatMap_of_place Prod.fst (nodup_map_fst_conditionals script) ?_ ?_
    · rintro ⟨uid, operation⟩ -
      refine nodup_filterMap_unless Prod.snd _ (fun entry => .missingCondition uid entry.2 entry.1)
        (nodup_map_snd_zipIdx operation.order) fun entry other heq => ?_
      injection heq
    · intro entry second issue h hsecond
      obtain ⟨_, rfl⟩ := exists_told_of_mem h
      obtain ⟨_, heq⟩ := exists_told_of_mem hsecond
      injection heq with hplace
      exact hplace.symm
  · intro issue hunreachable hmissing
    obtain ⟨_, rfl⟩ := exists_told_of_mem hunreachable
    obtain ⟨_, _, hmem⟩ := List.mem_flatMap.mp hmissing
    obtain ⟨_, heq⟩ := exists_told_of_mem hmem
    cases heq
  · intro issue hmissing hother
    obtain ⟨_, rfl⟩ := exists_told_of_mem hmissing
    rcases List.mem_append.mp hother with hunreachable | hcondition
    · obtain ⟨_, heq⟩ := exists_told_of_mem hunreachable
      cases heq
    · obtain ⟨_, _, hmem⟩ := List.mem_flatMap.mp hcondition
      obtain ⟨_, heq⟩ := exists_told_of_mem hmem
      cases heq

theorem nodup_kindIssues : (Rule.kindIssues script).Nodup := by
  refine nodup_filterMap_of_place Prod.fst script.operations.nodup_keys ?_
  rintro ⟨uid, operation⟩ ⟨other, second⟩ issue h hsecond
  cases operation <;> cases second
  all_goals simp only [Option.some.injEq, reduceCtorEq] at h hsecond
  have heq := h.trans hsecond.symm
  injection heq

theorem nodup_issues (script : Script) : script.issues.Nodup := by
  refine nodup_flatMap_of_place id (by decide) (fun rule _ => ?_)
    fun rule other issue h hother => ?_
  · cases rule with
    | usedSteps => exact nodup_unusedSteps
    | dependencies => exact nodup_dependencyIssues
    | references => exact nodup_referenceIssues
    | order => exact nodup_orderIssues
    | operationKind => exact nodup_kindIssues
  · exact (rule_eq_of_mem_check h).symm.trans (rule_eq_of_mem_check hother)

/-- Everything is used, everything that is named is there, and everything can run. -/
structure WellFormed (script : Script) : Prop where
  steps : ∀ uid, script.steps.contains uid → WorkKind.step.opens uid ∧ script.Uses uid
  dependencies : ∀ dependent uids, script.Declares dependent uids → ∀ uid ∈ uids,
    (WorkKind.step.opens uid ∨ WorkKind.operation.opens uid) ∧
      (script.steps.contains uid ∨ script.operations.contains uid)
  work : ∀ uid operation condition row, script.HasRow uid operation condition row →
    ∀ work, row.work = some work → script.HasWork work
  operands : ∀ uid operation condition row, script.HasRow uid operation condition row →
    ∀ owner key, .internal owner key ∈ row.operands → script.Gives operation owner key
  listed : ∀ uid ∈ script.order.uids, script.operations.contains uid
  entered : ∀ uid, script.operations.contains uid →
    uid ∈ script.order.uids ∨ ∃ row ∈ script.rows, row.work = some uid
  ordered : ∀ uid operation, script.operations.get? uid = some (.conditional operation) →
    ∀ condition ∈ operation.order, operation.conditions.contains condition
  conditional : ∀ uid operation, script.operations.get? uid ≠ some (.unsupported operation)

theorem Gives.hasOwner {operation : Conditional} {owner : Uid} {key : String}
    (h : script.Gives operation owner key) : script.HasOwner operation owner := by
  cases h with
  | condition hopens hcontains => exact .inl ⟨hopens, hcontains⟩
  | step hopens hget => exact .inr (.inl ⟨hopens, by simp [Table.contains, hget]⟩)
  | operation hopens hcontains => exact .inr (.inr ⟨hopens, hcontains⟩)

theorem WellFormed.not_breaks (h : script.WellFormed) (issue : Issue) : ¬ script.Breaks issue := by
  intro hbreaks
  cases hbreaks with
  | unusedStep hget hunused => exact hunused (h.steps _ (by simp [Table.contains, hget]))
  | invalidDependency hdeclares hi hkind =>
    exact hkind (h.dependencies _ _ hdeclares _ (List.mem_of_getElem? hi)).1
  | missingDependency hdeclares hi hcontains =>
    exact hcontains (h.dependencies _ _ hdeclares _ (List.mem_of_getElem? hi)).2
  | danglingWork hrow hwork hnone => exact hnone (h.work _ _ _ _ hrow _ hwork)
  | danglingOperand hrow hat hnone =>
    exact hnone (h.operands _ _ _ _ hrow _ _ (ConditionRow.mem_operands_iff.mpr ⟨_, hat⟩)).hasOwner
  | unknownField hrow hat howner hgives =>
    exact hgives (h.operands _ _ _ _ hrow _ _ (ConditionRow.mem_operands_iff.mpr ⟨_, hat⟩))
  | missingOperation hi hcontains => exact hcontains (h.listed _ (List.mem_of_getElem? hi))
  | unreachableOperation hcontains hnot => exact hnot (h.entered _ hcontains)
  | missingCondition hget hi hcontains =>
    exact hcontains (h.ordered _ _ hget _ (List.mem_of_getElem? hi))
  | unsupportedOperation hget => exact h.conditional _ _ hget

theorem wellFormed_of_not_breaks (h : ∀ issue, ¬ script.Breaks issue) : script.WellFormed where
  steps uid hcontains := by
    obtain ⟨step, hget⟩ := Option.isSome_iff_exists.mp hcontains
    by_contra hunused
    exact h _ (.unusedStep hget hunused)
  dependencies dependent uids hdeclares uid hmem := by
    obtain ⟨i, hi⟩ := List.getElem?_of_mem hmem
    constructor
    · by_contra hkind
      exact h _ (.invalidDependency hdeclares hi hkind)
    · by_contra hcontains
      exact h _ (.missingDependency hdeclares hi hcontains)
  work uid operation condition row hrow work hwork := by
    by_contra hnone
    exact h _ (.danglingWork hrow hwork hnone)
  operands uid operation condition row hrow owner key hmem := by
    obtain ⟨side, hat⟩ := ConditionRow.mem_operands_iff.mp hmem
    by_contra hgives
    by_cases howner : script.HasOwner operation owner
    · exact h _ (.unknownField hrow hat howner hgives)
    · exact h _ (.danglingOperand hrow hat howner)
  listed uid hmem := by
    obtain ⟨i, hi⟩ := List.getElem?_of_mem hmem
    by_contra hcontains
    exact h _ (.missingOperation hi hcontains)
  entered uid hcontains := by
    by_contra hnot
    exact h _ (.unreachableOperation hcontains hnot)
  ordered uid operation hget condition hmem := by
    obtain ⟨i, hi⟩ := List.getElem?_of_mem hmem
    by_contra hcontains
    exact h _ (.missingCondition hget hi hcontains)
  conditional uid operation hget := h _ (.unsupportedOperation hget)

theorem isValid_iff_forall_not_breaks : script.isValid ↔ ∀ issue, ¬ script.Breaks issue := by
  rw [isValid, List.isEmpty_iff, List.eq_nil_iff_forall_not_mem]
  exact forall_congr' fun issue => not_congr mem_issues_iff

theorem isValid_iff_wellFormed : script.isValid ↔ script.WellFormed :=
  isValid_iff_forall_not_breaks.trans ⟨wellFormed_of_not_breaks, WellFormed.not_breaks⟩

theorem exposes?_of_operand (h : script.isValid) {uid condition owner : Uid} {key : String}
    {operation : Conditional} {row : ConditionRow}
    (hrow : script.HasRow uid operation condition row)
    (hmem : .internal owner key ∈ row.operands) :
    Rule.exposes? script operation owner key = some true :=
  exposes?_eq_some_true_iff.mpr
    ((isValid_iff_wellFormed.mp h).operands _ _ _ _ hrow _ _ hmem)

theorem of?_of_step (h : script.isValid) {uid : Uid} {step : Step}
    (hstep : script.steps.get? uid = some step) : WorkKind.of? uid = some .step := by
  have hcontains : script.steps.contains uid := by simp [Table.contains, hstep]
  exact WorkKind.opens_iff.mp ((isValid_iff_wellFormed.mp h).steps uid hcontains).1

/-- The scripts that validation accepts are the well-formed ones, and of any other script it tells
each breach once and nothing that is no breach. -/
theorem isValid_iff_wellFormed_and_issues_exact (script : Script) :
    (script.isValid ↔ script.WellFormed) ∧ script.issues.Nodup ∧
      ∀ issue, issue ∈ script.issues ↔ script.Breaks issue :=
  ⟨isValid_iff_wellFormed, nodup_issues script, fun _ => mem_issues_iff⟩

end Script

end Workflow
