import Workflow.Proofs.Run.Course
import Workflow.Proofs.Validation.WellFormed

/-!
Fields that are read are there. What validation takes a key to name is what a run finds under it,
and every result that is ever stored has the fields that are promised for its identifier; so a run
of a valid script does not end because a result lacks a field.
-/

set_option autoImplicit false

namespace Workflow

theorem Operand.exists_segments {key : String} (h : outputHead key ≠ "") :
    ∃ rest, Path.segments key = "output" :: outputHead key :: rest := by
  unfold outputHead at h ⊢
  by_cases hopens : "output.".toList.isPrefixOf key.toList
  · simp only [hopens, if_true] at h ⊢
    obtain ⟨field, hfield⟩ := List.isPrefixOf_iff_prefix.mp hopens
    have hdrop : key.toList.drop "output.".toList.length = field := by rw [← hfield]; simp
    rw [hdrop] at h ⊢
    obtain ⟨rest, hrest⟩ := Text.exists_pieces '.' field
    have hpieces : Text.pieces '.' key.toList =
        "output".toList :: field.takeWhile (· ≠ '.') :: rest := by
      rw [← hfield, ← hrest]
      have hmark : '.' ∉ "output".toList := by decide
      exact Text.pieces_append hmark field
    have hkept : (field.takeWhile (· ≠ '.')).isEmpty = false := by
      rw [List.isEmpty_eq_false_iff]
      exact fun hnil => h (by rw [hnil])
    refine ⟨(rest.filter fun piece => !piece.isEmpty).map String.ofList, ?_⟩
    simp only [Path.segments, hpieces, List.filter_cons, hkept]
    rfl
  · simp only [if_neg hopens] at h
    exact absurd rfl h

def Operand.hasTwoSegments : Operand → Bool
  | .static _ => true
  | .internal owner key => !owner.isWork || (Path.segments key).length == 2

/-- An object with an object for its output, which has all the fields. -/
def Json.Gives (fields : List String) (record : Json) : Prop :=
  ∃ entries outputs, record = .object entries ∧ entries.lookup "output" = some (.object outputs) ∧
    ∀ field ∈ fields, (outputs.lookup field).isSome

theorem Json.Gives.lookup?_ne_none {fields : List String} {record : Json} {key : String}
    (h : record.Gives fields) (hhead : Operand.outputHead key ∈ fields)
    (hnamed : Operand.outputHead key ≠ "") (hlength : (Path.segments key).length = 2) :
    record.lookup? key ≠ none := by
  obtain ⟨entries, outputs, rfl, houtput, hfields⟩ := h
  obtain ⟨rest, hsegments⟩ := Operand.exists_segments hnamed
  obtain rfl : rest = [] := by simpa [hsegments] using hlength
  have hfound := hfields _ hhead
  obtain ⟨value, hvalue⟩ := Option.isSome_iff_exists.mp hfound
  simp [Json.lookup?, hsegments, Path.child?, houtput, hvalue]

theorem gives_conditionResult (holds : Bool) : (conditionResult holds).Gives ["result"] :=
  ⟨_, _, rfl, rfl, by simp⟩

theorem gives_operationResult (matched : List Uid) :
    (operationResult matched).Gives Conditional.outputKeys :=
  ⟨_, _, rfl, rfl, by simp [Conditional.outputKeys, Table.lookup_cons]⟩

namespace Script

/-- The fields that are promised for the result of an identifier. -/
def fields (script : Script) (uid : Uid) : List String :=
  match WorkKind.of? uid with
  | some .step => ((script.steps.get? uid).map fun step => step.kind.outputKeys).getD []
  | some .operation => Conditional.outputKeys
  | some .condition => ["result"]
  | none => []

variable {script : Script} {uid : Uid}

theorem empty_not_mem_fields : "" ∉ script.fields uid := by
  unfold fields
  split
  · cases script.steps.get? uid with
    | none => simp
    | some step => cases hkind : step.kind <;> simp [hkind, StepKind.outputKeys]
  · simp [Conditional.outputKeys]
  · simp
  · simp

def Furnished (script : Script) (results : Table Json) : Prop :=
  ∀ uid record, results.get? uid = some record → record.Gives (script.fields uid)

theorem furnished_empty : script.Furnished ∅ := fun _ _ hrecord => by simp at hrecord

theorem Furnished.insert {results : Table Json} {value : Json} (h : script.Furnished results)
    (hvalue : value.Gives (script.fields uid)) : script.Furnished (results.insert uid value) := by
  intro other record hrecord
  rw [Table.get?_insert] at hrecord
  by_cases heq : other = uid
  · rw [if_pos heq] at hrecord
    cases hrecord
    exact heq ▸ hvalue
  · rw [if_neg heq] at hrecord
    exact h other record hrecord

theorem eq_conditionKey_of_exposes? {operation : Conditional} {owner : Uid} {key : String}
    (h : Rule.exposes? script operation owner key = some true)
    (hkind : WorkKind.of? owner = some .condition) : key = Operand.conditionKey := by
  simp only [Rule.exposes?, hkind] at h
  split at h
  case isTrue => simpa using h
  case isFalse => cases h

theorem outputHead_mem_fields {operation : Conditional} {owner : Uid} {key : String}
    (h : Rule.exposes? script operation owner key = some true) :
    Operand.outputHead key ∈ script.fields owner := by
  cases hkind : WorkKind.of? owner with
  | none => simp [Rule.exposes?, hkind] at h
  | some kind =>
    cases kind with
    | condition =>
      rw [eq_conditionKey_of_exposes? h hkind]
      simp only [fields, hkind]
      decide
    | step =>
      simp only [Rule.exposes?, hkind] at h
      cases hstep : script.steps.get? owner with
      | none => simp [hstep] at h
      | some step => simpa [fields, hkind, hstep] using h
    | operation =>
      simp only [Rule.exposes?, hkind] at h
      split at h
      case isTrue => simpa [fields, hkind] using h
      case isFalse => cases h

/-- Operations and conditions have identifiers of their kind, and what is read of steps and
operations is named by two segments. -/
structure Regular (script : Script) : Prop where
  operations : ∀ uid ∈ script.operations.keys, WorkKind.of? uid = some .operation
  conditions : ∀ entry ∈ script.conditionals, ∀ condition ∈ entry.2.conditions.keys,
    WorkKind.of? condition = some .condition
  operands : ∀ row ∈ script.rows, ∀ operand ∈ row.operands, operand.hasTwoSegments

namespace Regular

theorem of?_operation (h : script.Regular) {operation : Operation}
    (hfound : script.operations.get? uid = some operation) :
    WorkKind.of? uid = some .operation :=
  h.operations uid (Table.mem_keys_iff.mpr (by simp [Table.contains, hfound]))

variable {condition : Uid} {operation : Conditional} {row : ConditionRow}

theorem of?_condition (h : script.Regular) (hrow : script.HasRow uid operation condition row) :
    WorkKind.of? condition = some .condition :=
  h.conditions _ (mem_conditionals_iff.mpr hrow.get_operation) condition
    (Table.mem_keys_iff.mpr (by simp [Table.contains, hrow.get_row]))

theorem lookup?_ne_none (h : script.Regular) (hvalid : script.isValid)
    (hrow : script.HasRow uid operation condition row) {owner : Uid} {key : String} {record : Json}
    (hmem : .internal owner key ∈ row.operands) (hrecord : record.Gives (script.fields owner)) :
    record.lookup? key ≠ none := by
  have hexposed := exposes?_of_operand hvalid hrow hmem
  have hhead := outputHead_mem_fields hexposed
  have hlength : (Path.segments key).length = 2 := by
    cases hkind : WorkKind.of? owner with
    | none => simp [Rule.exposes?, hkind] at hexposed
    | some kind =>
      have hsegments := h.operands row (mem_rows hrow.get_operation hrow.get_row) _ hmem
      cases kind with
      | condition =>
        rw [eq_conditionKey_of_exposes? hexposed hkind]
        decide
      | step => simpa [Operand.hasTwoSegments, Uid.isWork, hkind] using hsegments
      | operation => simpa [Operand.hasTwoSegments, Uid.isWork, hkind] using hsegments
  exact hrecord.lookup?_ne_none hhead (fun hempty => empty_not_mem_fields (hempty ▸ hhead)) hlength

end Regular

end Script

/-- Whatever runners answered so far has the fields of the step's kind. -/
def RunState.Answered {σ : Type} (state : RunState σ) : Prop :=
  ∀ slot step output, .call slot step (.ok output) ∈ state.journal →
    output.Gives step.kind.outputKeys

namespace Engine

variable {σ : Type} {engine : Engine σ} {moment next : Moment σ}

theorem Move.journal_subset (hmove : engine.Move moment next) :
    moment.state.journal ⊆ next.state.journal := by
  cases hmove with
  | record => exact fun _ h => h
  | call => exact fun _ h => List.mem_append_left _ (List.mem_append_left _ h)
  | _ => exact fun _ h => List.mem_append_left _ h

theorem Move.furnished (hmove : engine.Move moment next) (hvalid : engine.script.isValid)
    (hregular : engine.script.Regular) (hanswered : next.state.Answered)
    (h : engine.script.Furnished moment.state.results) :
    engine.script.Furnished next.state.results := by
  cases hmove with
  | @call frames state work step slot runner output runners hpermits hstep hrunner hanswer =>
    have hgives : output.Gives step.kind.outputKeys :=
      hanswered slot { step with id := work } output
        (List.mem_append_left _ (List.mem_append_right _ (List.mem_singleton_self _)))
    refine h.insert ?_
    simpa [Script.fields, Script.of?_of_step hvalid hstep, hstep] using hgives
  | storeCondition _ hrow =>
    refine h.insert ?_
    simpa only [Script.fields, hregular.of?_condition hrow] using gives_conditionResult _
  | storeOperation hfound =>
    refine h.insert ?_
    simpa only [Script.fields, hregular.of?_operation hfound] using gives_operationResult _
  | visitOperation | visitCondition | enterOperation | enterCondition | leave | read | record =>
    exact h

theorem Fails.ne_unresolvedField {error : RunError} {after : RunState σ}
    (hfail : engine.Fails moment error after) (hvalid : engine.script.isValid)
    (hregular : engine.script.Regular) (h : engine.script.Furnished moment.state.results)
    (owner : Uid) (key : String) : error ≠ .unresolvedField owner key := by
  rintro rfl
  cases hfail with
  | noField hreads hrecord hmissing =>
    obtain ⟨uid, operation, condition, row, -, -, hrow, hmem⟩ := hreads
    exact hregular.lookup?_ne_none hvalid hrow hmem (h owner _ hrecord) hmissing
  | noConditionField hreads hkind hkey =>
    obtain ⟨uid, operation, condition, row, -, -, hrow, hmem⟩ := hreads
    exact hkey (Script.eq_conditionKey_of_exposes?
      (Script.exposes?_of_operand hvalid hrow hmem) hkind)

theorem Fails.journal_subset {error : RunError} {after : RunState σ}
    (hfail : engine.Fails moment error after) : moment.state.journal ⊆ after.journal := by
  cases hfail with
  | call => exact fun _ h => List.mem_append_left _ h
  | _ => exact fun _ h => h

end Engine

/-- Where every output that the runners give in a run of a valid script has the fields of its step's
kind, the run never ends because a field that is read is not there. -/
theorem Script.ne_unresolvedField_of_isValid {σ : Type} {script : Script} (hvalid : script.isValid)
    (hregular : script.Regular) (executor : Executor σ) (runners : σ)
    (hanswered : (executor.execute script runners).2.Answered) (owner : Uid) (key : String) :
    (executor.execute script runners).1 ≠ .error (.unresolvedField owner key) := by
  intro herror
  obtain ⟨moment, hfurnished, hfail⟩ := executor.exists_fails script ∅ runners
    (P := fun moment => moment.state.Answered → script.Furnished moment.state.results)
    (fun _ => furnished_empty) (fun moment next hmove h hnext => by
      have hmoment : moment.state.Answered :=
        fun slot step output hmem => hnext slot step output (hmove.journal_subset hmem)
      exact hmove.furnished hvalid hregular hnext (h hmoment)) herror
  have hmoment : moment.state.Answered :=
    fun slot step output hmem => hanswered slot step output (hfail.journal_subset hmem)
  exact hfail.ne_unresolvedField hvalid hregular (hfurnished hmoment) owner key rfl

def Script.lookBack : Script where
  order := ((OperationOrder.empty.insert "op_1").1.insert "op_2").1
  operations := Table.ofList [
    ("op_1", .conditional {
      conditions := Table.ofList [
        ("cond_1", { left := some (.static (.bool true)), work := some "step_1" })]
      order := ["cond_1"] }),
    ("op_2", .conditional {
      conditions := Table.ofList [
        ("cond_2", {
          operator := some .and
          left := some (.internal "step_1" "output.payload.")
          right := some (.internal "cond_3" Operand.conditionKey) }),
        ("cond_3", { left := some (.internal "op_1" "output.matched") })]
      order := ["cond_2"] })]
  steps := Table.ofList [
    ("step_1", ⟨"step_1", .web, .web { action := .get, url := "http://x" }, none, [], 0⟩)]

def Executor.forthcoming : Executor Unit where
  defaultRunner := some fun step _ =>
    let outputs := step.kind.outputKeys.map fun key => (key, Json.bool true)
    (.ok (.object [("output", .object outputs)]), ())

def Event.owner? : Event → Option Uid
  | .read owner _ => some owner
  | _ => none

def Event.output? : Event → Option (StepKind × Json)
  | .call _ step (.ok output) => some (step.kind, output)
  | _ => none

theorem Script.lookBack_ne_unresolvedField :
    let run := Executor.forthcoming.execute Script.lookBack ()
    Script.lookBack.isValid ∧ Script.lookBack.Regular ∧ run.2.Answered ∧
      run.2.journal.filterMap Event.owner? = ["step_1", "op_1"] ∧
      ∀ owner key, run.1 ≠ .error (.unresolvedField owner key) := by
  intro run
  have hvalid : Script.lookBack.isValid := by decide
  have hregular : Script.lookBack.Regular := ⟨by decide, by decide, by decide⟩
  have hanswered : run.2.Answered := by
    intro slot step output hmem
    have hcall : (step.kind, output) ∈ run.2.journal.filterMap Event.output? :=
      List.mem_filterMap.mpr ⟨_, hmem, rfl⟩
    obtain ⟨hkind, houtput⟩ := Prod.mk.inj (List.mem_singleton.mp hcall)
    rw [hkind, houtput]
    exact ⟨_, _, rfl, rfl, by decide⟩
  exact ⟨hvalid, hregular, hanswered, rfl,
    Script.ne_unresolvedField_of_isValid hvalid hregular Executor.forthcoming () hanswered⟩

end Workflow
