import Workflow.Proofs.Run.Parametric
import Workflow.Trace.Text

/-!
What the call of an operation adds to the records, and what it says of that in its result. Records
of nested operations stand in between, but none of the operation itself: it cannot be entered again
before it has ended.
-/

set_option autoImplicit false

namespace Workflow

variable {σ α β : Type}

namespace TraceRecord

def held (records : List TraceRecord) : List Uid :=
  (records.filter TraceRecord.matched).map TraceRecord.condition

theorem ofOperation_append (uid : Uid) (first second : List TraceRecord) :
    ofOperation uid (first ++ second) = ofOperation uid first ++ ofOperation uid second :=
  List.filter_append ..

theorem ofOperation_eq_nil {uid : Uid} {records : List TraceRecord}
    (h : ∀ r ∈ records, r.operation ≠ uid) : ofOperation uid records = [] :=
  List.filter_eq_nil_iff.mpr fun r hr => by simpa using h r hr

end TraceRecord

/-- The records are those of all conditions of the order; or, if the first one that holds is to be
the last, those up to it. -/
def MatchPolicy.Evaluates (order : List Uid) (records : List TraceRecord) : MatchPolicy → Prop
  | .all => records.map TraceRecord.condition = order
  | .firstMatch =>
    (records.map TraceRecord.condition = order ∧ ∀ r ∈ records, r.matched = false) ∨
      ∃ front last, records = front ++ [last] ∧ records.map TraceRecord.condition <+: order ∧
        last.matched = true ∧ ∀ r ∈ front, r.matched = false

namespace MatchPolicy.Evaluates

variable {policy : MatchPolicy} {order : List Uid} {records : List TraceRecord} {r : TraceRecord}

theorem nil : policy.Evaluates [] [] := by
  cases policy with
  | all => rfl
  | firstMatch => exact .inl ⟨rfl, fun _ h => nomatch h⟩

theorem cons_unmatched (hr : r.matched = false) (h : policy.Evaluates order records) :
    policy.Evaluates (r.condition :: order) (r :: records) := by
  cases policy with
  | all => exact congrArg (r.condition :: ·) h
  | firstMatch =>
    rcases h with ⟨horder, hnone⟩ | ⟨front, last, rfl, hprefix, hlast, hfront⟩
    · exact .inl ⟨congrArg (r.condition :: ·) horder, List.forall_mem_cons.mpr ⟨hr, hnone⟩⟩
    · exact .inr ⟨r :: front, last, rfl, (List.prefix_cons_inj _).mpr hprefix, hlast,
        List.forall_mem_cons.mpr ⟨hr, hfront⟩⟩

theorem cons_matched (hpolicy : policy ≠ .firstMatch) (r : TraceRecord)
    (h : policy.Evaluates order records) :
    policy.Evaluates (r.condition :: order) (r :: records) := by
  cases policy with
  | all => exact congrArg (r.condition :: ·) h
  | firstMatch => exact absurd rfl hpolicy

theorem first (hpolicy : policy = .firstMatch) (hr : r.matched = true) (rest : List Uid) :
    policy.Evaluates (r.condition :: rest) [r] := by
  subst hpolicy
  exact .inr ⟨[], r, rfl, List.prefix_append [r.condition] rest, hr, fun _ h => nomatch h⟩

end MatchPolicy.Evaluates

namespace Run

/-- If the action succeeds, the records that it adds have the property, together with its answer. -/
def Appends (action : Run σ α) (Q : α → List TraceRecord → Prop) : Prop :=
  ∀ state a after, action.outcome state = (.ok a, after) →
    ∃ records, after.records = state.records ++ records ∧ Q a records

def Quiet (action : Run σ α) : Prop :=
  ∀ state, (action.outcome state).2.records = state.records

abbrev Avoids (path : List Uid) (action : Run σ α) : Prop :=
  action.Appends fun _ records => ∀ r ∈ records, r.operation ∉ path

theorem exists_of_outcome_bind {action : Run σ α} {f : α → Run σ β} {state after : RunState σ}
    {b : β} (h : (action >>= f).outcome state = (.ok b, after)) :
    ∃ a between, action.outcome state = (.ok a, between) ∧
      (f a).outcome between = (.ok b, after) := by
  rcases hfirst : action.outcome state with ⟨error | a, between⟩
  · rw [outcome_bind_error hfirst] at h
    cases h
  · rw [outcome_bind_ok hfirst] at h
    exact ⟨a, between, rfl, h⟩

namespace Appends

variable {action : Run σ α} {f : α → Run σ β} {Q Q' : α → List TraceRecord → Prop}
  {R : β → List TraceRecord → Prop}

theorem imp (h : action.Appends Q) (hQ : ∀ a records, Q a records → Q' a records) :
    action.Appends Q' := by
  intro state a after hend
  obtain ⟨records, hrecords, ha⟩ := h state a after hend
  exact ⟨records, hrecords, hQ a records ha⟩

theorem pure {a : α} (h : Q a []) : (Pure.pure a : Run σ α).Appends Q := by
  intro state b after hend
  cases hend
  exact ⟨[], (List.append_nil _).symm, h⟩

theorem throw (error : RunError) : (throw error : Run σ α).Appends Q :=
  fun _ _ _ hend => nomatch hend

theorem bind (h : action.Appends Q)
    (hf : ∀ a first, Q a first → (f a).Appends fun b second => R b (first ++ second)) :
    (action >>= f).Appends R := by
  intro state b after hend
  obtain ⟨a, between, hfirst, hsecond⟩ := exists_of_outcome_bind hend
  obtain ⟨first, hrecords, ha⟩ := h state a between hfirst
  obtain ⟨second, hrecords', hb⟩ := hf a first ha between b after hsecond
  exact ⟨first ++ second, by rw [hrecords', hrecords, List.append_assoc], hb⟩

theorem quiet (h : action.Quiet) : action.Appends fun _ records => records = [] := by
  intro state a after hend
  refine ⟨[], ?_, rfl⟩
  rw [List.append_nil, ← h state, hend]

theorem after_quiet (h : action.Quiet) (hf : ∀ a, (f a).Appends R) : (action >>= f).Appends R :=
  (quiet h).bind fun a _ hnil => by
    subst hnil
    exact hf a

theorem record (r : TraceRecord) : (Run.record r : Run σ Unit).Appends fun _ records =>
    records = [r] := by
  intro state _ after hend
  cases hend
  exact ⟨[r], rfl, rfl⟩

end Appends

theorem quiet_note (event : Event) : (note event : Run σ Unit).Quiet := fun _ => rfl

theorem quiet_store (uid : Uid) (value : Json) : (store uid value : Run σ Unit).Quiet :=
  fun _ => rfl

theorem Appends.entering {frame : Frame} {path : List Uid} {body : List Uid → Run σ α}
    {Q : α → List TraceRecord → Prop}
    (h : frame.uid ∉ path → (body (frame.uid :: path)).Appends Q) :
    (Run.entering frame path body).Appends Q := by
  unfold Run.entering
  split
  · exact throw _
  · refine after_quiet (quiet_note _) fun _ => (h ‹_›).bind fun a records ha => ?_
    refine after_quiet (quiet_note _) fun _ => pure ?_
    rwa [List.append_nil]

namespace Avoids

variable {path : List Uid} {action : Run σ α} {f : α → Run σ β}

theorem pure (a : α) : Avoids path (Pure.pure a : Run σ α) :=
  Appends.pure fun _ h => nomatch h

theorem throw (error : RunError) : Avoids path (MonadExcept.throw error : Run σ α) :=
  Appends.throw error

theorem quiet (h : action.Quiet) : Avoids path action :=
  (Appends.quiet h).imp fun _ _ hnil => by
    subst hnil
    exact fun _ h => nomatch h

theorem bind (h : Avoids path action) (hf : ∀ a, Avoids path (f a)) : Avoids path (action >>= f) :=
  Appends.bind h fun a _ hfirst => (hf a).imp fun _ _ hsecond =>
    List.forall_mem_append.mpr ⟨hfirst, hsecond⟩

theorem parametric (path : List Uid) :
    Parametric fun _ (action : Run σ _) (_ : Run σ _) => Avoids path action where
  pure := pure
  throw := throw
  bind := bind

end Avoids

end Run

namespace Engine

open Run

theorem quiet_leaf (operand : Operand) : (leaf operand : Run σ Trace).Quiet := by
  intro state
  rw [outcome_leaf]
  cases operand with
  | static value => rfl
  | internal owner key =>
    cases hrecord : state.results.get? owner with
    | none => simp only [hrecord]
    | some record =>
      simp only [hrecord]
      cases record.lookup? key <;> rfl

theorem quiet_runStep (engine : Engine σ) (uid : Uid) (step : Step) :
    (engine.runStep uid step).Quiet := by
  intro state
  rw [outcome_runStep]
  cases engine.executor.runnerFor? step.kind with
  | none => rfl
  | some found =>
    obtain ⟨slot, runner⟩ := found
    rcases hanswer : runner { step with id := uid } state.runners with ⟨_ | _, runners⟩ <;>
      simp only [hanswer] <;> rfl

structure AvoidsBelow (below : Below σ) : Prop where
  operation (uid : Uid) (depth : Nat) (path : List Uid) :
    Avoids path (below.operation uid depth path)
  condition (operation : Conditional) (condition : Uid) (depth : Nat) (path : List Uid) :
    Avoids path (below.condition operation condition depth path)

variable {engine : Engine σ} {below : Below σ}

theorem avoids_runAction (hbelow : AvoidsBelow below) (row : ConditionRow) (condition : Uid)
    (depth : Nat) (path : List Uid) :
    Avoids path (engine.runAction below row condition depth path) := by
  refine (Avoids.parametric path).runAction engine below condition fun work _ => ?_
  unfold runWork
  split
  · split
    · exact hbelow.operation work depth path
    · exact .throw _
  · split
    · exact .quiet (quiet_runStep engine _ _)
    · exact .throw _

theorem avoids_evaluateRow (hbelow : AvoidsBelow below) (operation : Conditional)
    (row : ConditionRow) (depth : Nat) (path : List Uid) :
    Avoids path (engine.evaluateRow below operation row depth path) := by
  refine (Avoids.parametric path).evaluateRow engine below operation fun operand _ => ?_
  refine (Avoids.parametric path).operand engine below rfl (.quiet (quiet_leaf operand))
    fun owner nested _ _ _ => ?_
  exact ⟨hbelow.condition operation owner _ path, avoids_runAction hbelow nested owner _ path⟩

theorem quiet_findCondition (engine : Engine σ) (operation : Conditional) (condition : Uid)
    (depth : Nat) : (engine.findCondition operation condition depth).Quiet := by
  intro state
  unfold findCondition checkDepth
  split <;> split <;> rfl

theorem quiet_findOperation (engine : Engine σ) (uid : Uid) (depth : Nat) :
    (engine.findOperation uid depth).Quiet := by
  intro state
  unfold findOperation checkDepth
  split <;> split <;> rfl

theorem avoids_evaluate (hbelow : AvoidsBelow below) (operation : Conditional) (condition : Uid)
    (depth : Nat) (path : List Uid) :
    Avoids path (engine.evaluate below operation condition depth path) := by
  refine .bind (.quiet (quiet_findCondition engine _ _ _)) fun row => .bind ?_ fun trace => ?_
  · refine Appends.entering fun _ => ?_
    exact (avoids_evaluateRow hbelow operation row depth _).imp fun _ _ hrecords r hr hpath =>
      hrecords r hr (List.mem_cons_of_mem _ hpath)
  · exact .bind (.quiet (quiet_store _ _)) fun _ => .pure _

/-- What an operation adds with these conditions, and which of them it counts as having held. -/
structure Summary (engine : Engine σ) (uid : Uid) (path conditions matched result : List Uid)
    (records : List TraceRecord) : Prop where
  avoids : ∀ r ∈ records, r.operation ∈ path → r.operation = uid
  evaluates :
    engine.executor.policy.Evaluates conditions (TraceRecord.ofOperation uid records)
  result_eq : result = matched ++ TraceRecord.held (TraceRecord.ofOperation uid records)

/-- Before its own record, a condition adds records of other operations only. -/
theorem Summary.own {uid : Uid} {path conditions matched result : List Uid}
    {before after : List TraceRecord} {r : TraceRecord} (huid : uid ∈ path)
    (hr : r.operation = uid) (hbefore : ∀ r ∈ before, r.operation ∉ path)
    (hafter : ∀ r ∈ after, r.operation ∈ path → r.operation = uid)
    (hevaluates : engine.executor.policy.Evaluates conditions
      (r :: TraceRecord.ofOperation uid after))
    (hresult : result = matched ++ TraceRecord.held (r :: TraceRecord.ofOperation uid after)) :
    engine.Summary uid path conditions matched result (before ++ ([r] ++ after)) := by
  have hnone : TraceRecord.ofOperation uid before = [] :=
    TraceRecord.ofOperation_eq_nil fun r hmem heq => hbefore r hmem (heq ▸ huid)
  have hown : TraceRecord.ofOperation uid (before ++ ([r] ++ after)) =
      r :: TraceRecord.ofOperation uid after := by
    rw [TraceRecord.ofOperation_append, hnone]
    simp [TraceRecord.ofOperation, hr]
  refine ⟨?_, hown ▸ hevaluates, hown ▸ hresult⟩
  simp only [List.forall_mem_append, List.forall_mem_singleton]
  exact ⟨fun r hmem hpath => absurd hpath (hbefore r hmem), fun _ => hr, hafter⟩

theorem appends_runConditions (hbelow : AvoidsBelow below) {uid : Uid} {path : List Uid}
    (huid : uid ∈ path) (operation : Conditional) (depth : Nat) (conditions matched : List Uid) :
    (engine.runConditions below uid operation depth path conditions matched).Appends
      (engine.Summary uid path conditions matched) := by
  induction conditions generalizing matched with
  | nil => exact .pure ⟨fun _ h => (nomatch h), .nil, (List.append_nil _).symm⟩
  | cons condition rest ih =>
    unfold runConditions
    split
    case h_1 => exact .throw _
    case h_2 row hrow =>
      refine .bind (hbelow.condition operation condition depth path) fun trace first hfirst => ?_
      split
      case isTrue =>
        refine .bind (avoids_runAction hbelow row condition _ path) fun work second hsecond => ?_
        have hbefore := List.forall_mem_append.mpr ⟨hfirst, hsecond⟩
        refine .bind (.record _) fun _ own hown => ?_
        subst hown
        split
        case isTrue hpolicy =>
          refine .pure ?_
          rw [← List.append_assoc first second]
          exact .own huid rfl hbefore (fun _ h => nomatch h) (.first hpolicy rfl rest) rfl
        case isFalse hpolicy =>
          refine (ih (matched ++ [condition])).imp fun result after hsummary => ?_
          rw [← List.append_assoc first second]
          exact .own huid rfl hbefore hsummary.avoids (hsummary.evaluates.cons_matched hpolicy _)
            (hsummary.result_eq.trans (List.append_assoc ..))
      case isFalse =>
        refine .bind (.record _) fun _ own hown => ?_
        subst hown
        refine (ih matched).imp fun result after hsummary => ?_
        exact .own huid rfl hfirst hsummary.avoids (.cons_unmatched rfl hsummary.evaluates)
          hsummary.result_eq

theorem appends_entering (hbelow : AvoidsBelow below) (uid : Uid) (operation : Conditional)
    (depth : Nat) (path : List Uid) :
    (entering (.operation uid) path fun path =>
      engine.runConditions below uid operation depth path operation.order []).Appends
      fun matched records =>
        uid ∉ path ∧ engine.Summary uid (uid :: path) operation.order [] matched records := by
  refine .entering fun hnew => ?_
  exact (appends_runConditions hbelow List.mem_cons_self operation depth operation.order []).imp
    fun _ _ hsummary => ⟨hnew, hsummary⟩

theorem avoids_runOperation (hbelow : AvoidsBelow below) (uid : Uid) (depth : Nat)
    (path : List Uid) : Avoids path (engine.runOperation below uid depth path) := by
  refine .bind (.quiet (quiet_findOperation engine uid depth)) fun operation => ?_
  refine .bind ?_ fun matched => .quiet (quiet_store uid _)
  refine (appends_entering hbelow uid operation depth path).imp fun matched records => ?_
  rintro ⟨hnew, hsummary⟩ r hr hpath
  exact hnew (hsummary.avoids r hr (List.mem_cons_of_mem _ hpath) ▸ hpath)

theorem avoidsBelow_calls (engine : Engine σ) (room : Nat) : AvoidsBelow (engine.calls room) := by
  induction room with
  | zero =>
    constructor
    · exact fun uid depth path =>
        .bind (.quiet (quiet_findOperation engine uid depth)) fun _ => .throw _
    · exact fun operation condition depth path =>
        .bind (.quiet (quiet_findCondition engine operation condition depth)) fun _ => .throw _
  | succ room ih =>
    exact ⟨avoids_runOperation ih, avoids_evaluate ih⟩

/-- Wherever in a run an operation is called, if the call ends it has added, among its records, its
own: one for each condition that it lists, in the order of that list, as far as the policy goes. Its
result names those that held. -/
theorem records_of_operation {engine : Engine σ} {room : Nat} {uid : Uid} {depth : Nat}
    {path : List Uid} {state after : RunState σ}
    (h : ((engine.calls room).operation uid depth path).outcome state = (.ok (), after)) :
    ∃ operation records, engine.script.operations.get? uid = some (.conditional operation) ∧
      after.records = state.records ++ records ∧
      engine.executor.policy.Evaluates operation.order (TraceRecord.ofOperation uid records) ∧
      after.results.get? uid = some (.object [("output", .object [
        ("matched", .array
          ((TraceRecord.held (TraceRecord.ofOperation uid records)).map .string)),
        ("success", .bool true)])]) := by
  cases room with
  | zero =>
    obtain ⟨_, _, -, hend⟩ := exists_of_outcome_bind h
    cases hend
  | succ room =>
    obtain ⟨operation, found, hfind, h⟩ := exists_of_outcome_bind h
    obtain ⟨matched, left, hbody, h⟩ := exists_of_outcome_bind h
    cases h
    have hquiet := quiet_findOperation engine uid depth state
    rw [hfind] at hquiet
    obtain ⟨records, hrecords, -, hsummary⟩ := appends_entering (avoidsBelow_calls engine room) uid
      operation depth path found matched left hbody
    refine ⟨operation, records, get?_of_findOperation hfind, ?_, hsummary.evaluates, ?_⟩
    · exact hrecords.trans (congrArg (· ++ records) hquiet)
    · rw [← List.nil_append (TraceRecord.held _), ← hsummary.result_eq]
      exact (Table.get?_insert left.results uid uid _).trans (if_pos rfl)

end Engine

/-- An operation that lists a condition twice, and in between one that runs another operation. -/
def Script.relisting : Script where
  operations := Table.ofList [
    ("op_1", .conditional {
      conditions := Table.ofList [
        ("cond_1", { left := some (.static (.bool true)), work := some "op_2" }),
        ("cond_2", { left := some (.static (.bool false)) })]
      order := ["cond_2", "cond_1", "cond_2"] }),
    ("op_2", .conditional {
      conditions := Table.ofList [("cond_3", { left := some (.static (.bool true)) })]
      order := ["cond_3"] })]

theorem Script.relisting_records :
    let engine : Engine Unit := ⟨{}, Script.relisting⟩
    let run := ((engine.calls 4).operation "op_1" 0 []).outcome { results := ∅, runners := () }
    run.1 = .ok () ∧
      run.2.records.map TraceRecord.operation = ["op_1", "op_2", "op_1", "op_1"] ∧
      (TraceRecord.ofOperation "op_1" run.2.records).map TraceRecord.condition =
        ["cond_2", "cond_1", "cond_2"] ∧
      run.2.results.get? "op_1" = some (.object [("output", .object [
        ("matched", .array [.string "cond_1"]), ("success", .bool true)])]) := by
  intro engine run
  have hend : run = (.ok (), run.2) := rfl
  obtain ⟨operation, records, hfound, hrecords, hevaluates, hresult⟩ :=
    Engine.records_of_operation hend
  cases hfound
  rw [List.nil_append] at hrecords
  rw [← hrecords] at hevaluates hresult
  exact ⟨rfl, rfl, hevaluates, hresult⟩

end Workflow
