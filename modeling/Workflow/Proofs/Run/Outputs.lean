import Workflow.Proofs.Run.Permission
import Workflow.Proofs.Validation.WellFormed

/-!
What is read of a step is what it gave. Results stand under identifiers of all kinds, and validation
does not keep the keys of operations and conditions from looking like those of steps; but only what
is listed can store something under the identifier of a step, apart from the call of the step
itself.
-/

set_option autoImplicit false

namespace Workflow

namespace Event

def given? (uid : Uid) : Event → Option Json
  | .call _ step (.ok output) => if uid = step.id then some output else none
  | _ => none

def shown? (uid : Uid) : Event → Option Json
  | .store key value | .read key value => if uid = key then some value else none
  | _ => none

theorem shown?_of_stored? {uid : Uid} {event : Event} {value : Json}
    (h : event.stored? uid = some value) : event.shown? uid = some value := by
  cases event with
  | store key stored => exact h
  | _ => cases h

end Event

theorem latest_given?_append (uid : Uid) (journal : List Event) (slot : RunnerSlot) (step : Step)
    (output : Json) :
    latest (Event.given? uid) (journal ++ [.call slot step (.ok output)]) =
      if uid = step.id then some output else latest (Event.given? uid) journal := by
  rw [latest_append, latest_singleton]
  by_cases heq : uid = step.id <;> simp [Event.given?, heq]

theorem latest_given?_stored {σ : Type} (uid : Uid) (state : RunState σ) (key : Uid)
    (value : Json) :
    latest (Event.given? uid) (state.stored key value).journal =
      latest (Event.given? uid) state.journal := by
  simp only [RunState.stored, RunState.noted]
  rw [latest_append]
  rfl

/-- Whatever is stored under an identifier, or read there, a runner gave last before. -/
def Genuine (uid : Uid) (journal : List Event) : Prop :=
  Lawful (fun before event => ∀ value, event.shown? uid = some value →
    latest (Event.given? uid) before = some value) journal

theorem Genuine.get?_replayed_eq_none {uid : Uid} {journal : List Event} (h : Genuine uid journal)
    (hnone : latest (Event.given? uid) journal = none) : (replayed ∅ journal).get? uid = none := by
  have hstored : latest (Event.stored? uid) journal = none := by
    refine latest_eq_none_iff.mpr fun event hmem => ?_
    obtain ⟨before, after, rfl⟩ := List.append_of_mem hmem
    cases hevent : event.stored? uid with
    | none => rfl
    | some value =>
      have hgiven := h before event after rfl value (Event.shown?_of_stored? hevent)
      have hbefore : latest (Event.given? uid) before = none :=
        latest_eq_none_iff.mpr fun earlier hearlier =>
          latest_eq_none_iff.mp hnone earlier (List.mem_append_left _ hearlier)
      rw [hbefore] at hgiven
      cases hgiven
  rw [get?_replayed, hstored]
  rfl

/-- A state that shows under an identifier what a runner gave last, and always has. -/
structure RunState.Shows {σ : Type} (uid : Uid) (state : RunState σ) : Prop where
  get?_results : state.results.get? uid = latest (Event.given? uid) state.journal
  genuine : Genuine uid state.journal

/-- Whether an identifier is listed, as an operation or as a condition of one. -/
def Script.Lists (script : Script) (uid : Uid) : Prop :=
  uid ∈ script.order.uids ∨ ∃ entry ∈ script.conditionals, uid ∈ entry.2.order

instance (script : Script) (uid : Uid) : Decidable (script.Lists uid) :=
  inferInstanceAs (Decidable (_ ∨ _))

theorem Script.Calls.lists {script : Script} {frames : List Frame} {frame : Frame}
    (h : script.Calls frames frame) (hkind : WorkKind.of? frame.uid = some .step) :
    script.Lists frame.uid := by
  cases h with
  | listed hlisted => exact .inl hlisted
  | condition hrow hlisted => exact .inr ⟨_, mem_conditionals_iff.mpr hrow.get_operation, hlisted⟩
  | operand _ _ _ _ hcondition => exact nomatch hkind.symm.trans hcondition
  | work _ _ _ _ hoperation => exact nomatch hkind.symm.trans hoperation
  | operandWork _ _ _ _ _ _ hoperation => exact nomatch hkind.symm.trans hoperation

namespace Engine

variable {σ : Type} {engine : Engine σ} {moment next : Moment σ} {uid : Uid}

theorem shows_of_note {state after : RunState σ} {event : Event} (h : state.Shows uid)
    (hjournal : after.journal = state.journal ++ [event]) (hgiven : event.given? uid = none)
    (hshown : ∀ value, event.shown? uid = some value → state.results.get? uid = some value)
    (hresults : after.results.get? uid = state.results.get? uid) : after.Shows uid where
  get?_results := by
    rw [hresults, hjournal, latest_append, latest_singleton, hgiven, h.get?_results, Option.none_or]
  genuine := by
    rw [hjournal]
    refine h.genuine.append fun value hvalue => ?_
    rw [← h.get?_results]
    exact hshown value hvalue

theorem shows_of_stored {state : RunState σ} {key : Uid} {value : Json} (h : state.Shows uid)
    (hne : uid ≠ key) : (state.stored key value).Shows uid :=
  shows_of_note h rfl rfl (by simp [Event.shown?, hne]) (by simp [RunState.stored, hne])

theorem shows_of_call {state : RunState σ} {slot : RunnerSlot} {step : Step} {output : Json}
    {runners : σ} (h : state.Shows uid) :
    ((state.called slot step (.ok output) runners).stored step.id output).Shows uid := by
  have hcalled : Genuine uid (state.journal ++ [.call slot step (.ok output)]) :=
    h.genuine.append fun value hvalue => nomatch hvalue
  have hlatest : latest (Event.given? uid) (state.journal ++ [.call slot step (.ok output)]) =
      if uid = step.id then some output else state.results.get? uid := by
    rw [latest_given?_append, h.get?_results]
  constructor
  · rw [latest_given?_stored]
    exact (Table.get?_insert _ _ _ _).trans hlatest.symm
  · refine hcalled.append fun value hvalue => ?_
    rw [hlatest]
    by_cases heq : uid = step.id
    · simpa [Event.shown?, heq] using hvalue
    · simp [Event.shown?, heq] at hvalue

theorem Move.shows (hmove : engine.Move moment next) (hkind : WorkKind.of? uid = some .step)
    (hunlisted : ¬ engine.script.Lists uid) (h : moment.state.Shows uid) :
    next.state.Shows uid := by
  cases hmove with
  | visitOperation | visitCondition | enterOperation | enterCondition | leave =>
    exact shows_of_note h rfl rfl (fun _ hvalue => nomatch hvalue) rfl
  | @read frames state owner key record hreads hrecord =>
    refine shows_of_note h rfl rfl (fun value hvalue => ?_) rfl
    by_cases heq : uid = owner
    · simp only [Event.shown?, heq, if_true] at hvalue
      rw [heq, hrecord, hvalue]
    · simp [Event.shown?, heq] at hvalue
  | call => exact shows_of_call h
  | storeCondition _ _ hcalls =>
    refine shows_of_stored h ?_
    rintro rfl
    exact hunlisted (hcalls.lists hkind)
  | storeOperation _ hcalls =>
    refine shows_of_stored h ?_
    rintro rfl
    exact hunlisted (hcalls.lists hkind)
  | record => exact ⟨h.get?_results, h.genuine⟩

theorem Fails.shows {error : RunError} {after : RunState σ}
    (hfail : engine.Fails moment error after) (h : moment.state.Shows uid) : after.Shows uid := by
  cases hfail with
  | call => exact shows_of_note h rfl rfl (fun _ hvalue => nomatch hvalue) rfl
  | notListed | unsupported | missingCondition | missingWork | cyclic | tooDeep | noResult
  | noField | noConditionField | noRunner => exact h

end Engine

/-- In a run of a valid script from no results, what is read of a step that is listed neither as an
operation nor as a condition is what the runner gave for it last. As long as it gave nothing,
reading fails; and a run that ends for this reason has seen no output of the step. -/
theorem Script.read_eq_given {σ : Type} {script : Script} (hvalid : script.isValid) {uid : Uid}
    (hstep : script.steps.contains uid) (hunlisted : ¬ script.Lists uid) (executor : Executor σ)
    (runners : σ) :
    let run := executor.execute script runners
    run.2.results = replayed ∅ run.2.journal ∧
      (∀ before record after, run.2.journal = before ++ .read uid record :: after →
        latest (Event.given? uid) before = some record) ∧
      (∀ before after, run.2.journal = before ++ after →
        latest (Event.given? uid) before = none →
        ∀ key, (Operand.internal uid key).resolve (replayed ∅ before) =
          .error (.unresolvedReference uid)) ∧
      (run.1 = .error (.unresolvedReference uid) →
        latest (Event.given? uid) run.2.journal = none) := by
  intro run
  obtain ⟨step, hfound⟩ := Option.isSome_iff_exists.mp hstep
  have hkind : WorkKind.of? uid = some .step := of?_of_step hvalid hfound
  have hstart : RunState.Shows uid { results := ∅, runners } := ⟨rfl, .nil⟩
  have hmove : ∀ moment next, Engine.Move ⟨executor, script⟩ moment next →
      moment.state.Shows uid → next.state.Shows uid :=
    fun _ _ hmove h => hmove.shows hkind hunlisted h
  obtain ⟨_, htold⟩ := executor.exists_told script ∅ runners
  obtain ⟨_, hshows⟩ := executor.exists_frames script ∅ runners
    (P := fun moment => moment.state.Shows uid) hstart hmove fun _ _ _ hfail h => hfail.shows h
  refine ⟨htold.results_eq.symm, fun before record after heq => ?_,
    fun before after heq hnone key => ?_, fun herror => ?_⟩
  · exact hshows.genuine before _ after heq record (if_pos rfl)
  · have hbefore : Genuine uid before := Lawful.of_append (heq ▸ hshows.genuine)
    simp only [Operand.resolve, hbefore.get?_replayed_eq_none hnone]
  · obtain ⟨moment, hmoment, hfail⟩ := executor.exists_fails script ∅ runners
      (P := fun moment => moment.state.Shows uid) hstart hmove herror
    cases hfail with
    | noResult _ hmissing => exact hmoment.get?_results.symm.trans hmissing

def Script.rerun : Script where
  order := ((OperationOrder.empty.insert "op_1").1.insert "op_2").1
  operations := Table.ofList [
    ("op_1", .conditional {
      conditions := Table.ofList [
        ("cond_1", { left := some (.static (.bool true)), work := some "step_1" }),
        ("cond_2", { left := some (.internal "step_1" "output.result"), work := some "step_1" })]
      order := ["cond_1", "cond_2"] }),
    ("op_2", .conditional {
      conditions := Table.ofList [
        ("cond_3", { left := some (.internal "step_1" "output.result") })]
      order := ["cond_3"] })]
  steps := Table.ofList [("step_1", ⟨"step_1", .native, .native .null, none, [], 0⟩)]

def verdict (answer : Bool) : Json := .object [("output", .object [("result", .bool answer)])]

def Executor.alternating : Executor Bool where
  defaultRunner := some fun _ answer => (.ok (verdict answer), !answer)

theorem Script.rerun_read_eq_given :
    let run := Executor.alternating.execute Script.rerun true
    let before := run.2.journal.take 21
    Script.rerun.isValid ∧ Script.rerun.steps.contains "step_1" ∧ ¬ Script.rerun.Lists "step_1" ∧
      run.2.journal = before ++ .read "step_1" (verdict false) :: run.2.journal.drop 22 ∧
      latest (Event.given? "step_1") before = some (verdict false) := by
  intro run before
  have hvalid : Script.rerun.isValid := by decide
  have hstep : Script.rerun.steps.contains "step_1" := by decide
  have hunlisted : ¬ Script.rerun.Lists "step_1" := by decide
  have hread : run.2.journal =
      before ++ .read "step_1" (verdict false) :: run.2.journal.drop 22 := rfl
  obtain ⟨-, hgiven, -⟩ :=
    Script.read_eq_given hvalid hstep hunlisted Executor.alternating true
  exact ⟨hvalid, hstep, hunlisted, hread, hgiven _ _ _ hread⟩

/-- An operation and a condition under the identifiers of two steps, which are never called. -/
def Script.impostors : Script where
  order := ((OperationOrder.empty.insert "step_2").1.insert "op_1").1
  operations := Table.ofList [
    ("step_2", .conditional { conditions := ∅, order := [] }),
    ("op_1", .conditional {
      conditions := Table.ofList [
        ("step_1", { left := some (.static (.bool true)) }),
        ("cond_1", { left := some (.internal "step_1" "output.result") }),
        ("cond_2", { left := some (.internal "step_2" "output.result") })]
      order := ["step_1", "cond_1", "cond_2"] })]
  steps := Table.ofList [
    ("step_1", ⟨"step_1", .native, .native .null, none, [], 0⟩),
    ("step_2", ⟨"step_2", .native, .native .null, none, [], 0⟩)]

def Event.found? : Event → Option (Uid × Json)
  | .read owner record => some (owner, record)
  | _ => none

/-- The script is valid, and what it reads of its steps was stored by a condition and by an
operation: no runner has given anything. -/
theorem Script.impostors_read :
    let run := ({} : Executor Unit).execute Script.impostors ()
    Script.impostors.isValid ∧
      Script.impostors.steps.contains "step_1" ∧ Script.impostors.steps.contains "step_2" ∧
      run.2.journal.filterMap Event.found? =
        [("step_1", .object [("output", .object [("result", .bool true)])]),
          ("step_2", .object [("output", .object [
            ("matched", .array []), ("success", .bool true)])])] ∧
      latest (Event.given? "step_1") run.2.journal = none ∧
      latest (Event.given? "step_2") run.2.journal = none :=
  ⟨by decide, by decide, by decide, rfl, rfl, rfl⟩

end Workflow
