import Workflow.Proofs.Run.Footprint
import Workflow.Proofs.Run.Limits

/-!
What it changes to stop at the first condition that holds. Both policies do the same up to there.
From then on the first one only closes what is open, whatever operations stand in each other, while
the second one may go on. It is not so where a condition that is read runs an operation: a run that
was cut short there still has to decide the condition that reads it.
-/

set_option autoImplicit false

namespace Workflow

variable {σ α β : Type}

def RunState.calls (state : RunState σ) : List (RunnerSlot × Step × Except String Json) :=
  state.journal.filterMap Event.call?

/-- A condition that the operation lists has held. -/
def RunState.Matched (uid : Uid) (state : RunState σ) : Prop :=
  ∃ r ∈ state.records, r.operation = uid ∧ r.matched = true

theorem RunState.calls_noted {event : Event} (h : event.call? = none) (state : RunState σ) :
    (state.noted event).calls = state.calls := by
  simp [calls, noted, h]

theorem Run.Grows.extends_calls {action : Run σ α} (h : action.Grows) (state : RunState σ) :
    state.calls <+: (action.outcome state).2.calls :=
  (h state).filterMap Event.call?

namespace Run

def Closes (Q : RunState σ → Prop) (action : Run σ α) (state : RunState σ) : Prop :=
  ∃ a after, action.outcome state = (.ok a, after) ∧ Q after ∧ after.calls = state.calls

/-- The first action does all that the second one does; or it succeeds with the property, and the
second one goes on from the calls that were made by then. -/
def CutShort (Q : RunState σ → Prop) (short long : Run σ α) : Prop :=
  ∀ state, long.outcome state = short.outcome state ∨
    ∃ a after, short.outcome state = (.ok a, after) ∧ Q after ∧
      after.calls <+: (long.outcome state).2.calls

namespace CutShort

variable {Q R : RunState σ → Prop} {short long : Run σ α} {f g : α → Run σ β}

theorem refl (action : Run σ α) : CutShort Q action action := fun _ => .inl rfl

theorem imp (h : CutShort Q short long) (hQ : ∀ state, Q state → R state) :
    CutShort R short long := by
  intro state
  rcases h state with heq | ⟨a, after, hend, hafter, hcalls⟩
  · exact .inl heq
  · exact .inr ⟨a, after, hend, hQ after hafter, hcalls⟩

theorem after {action : Run σ α}
    (hf : ∀ state a after, action.outcome state = (.ok a, after) → CutShort Q (f a) (g a)) :
    CutShort Q (action >>= f) (action >>= g) := by
  intro state
  rcases hend : action.outcome state with ⟨error | a, after⟩
  · rw [outcome_bind_error hend, outcome_bind_error hend]
    exact .inl rfl
  · rw [outcome_bind_ok hend, outcome_bind_ok hend]
    exact hf state a after hend after

theorem bind (h : CutShort Q short long) (hf : ∀ a, CutShort R (f a) (g a))
    (hcloses : ∀ a state, Q state → Closes R (f a) state) (hgrows : ∀ a, (g a).Grows) :
    CutShort R (short >>= f) (long >>= g) := by
  intro state
  rcases h state with heq | ⟨a, after, hend, hafter, hcalls⟩
  · rcases hend : short.outcome state with ⟨error | a, after⟩
    · rw [hend] at heq
      rw [outcome_bind_error hend, outcome_bind_error heq]
      exact .inl rfl
    · rw [hend] at heq
      rw [outcome_bind_ok hend, outcome_bind_ok heq]
      exact hf a after
  · obtain ⟨b, last, hlast, hR, hsame⟩ := hcloses a after hafter
    refine .inr ⟨b, last, by rw [outcome_bind_ok hend, hlast], hR, ?_⟩
    rw [hsame, outcome_bind]
    rcases hlong : long.outcome state with ⟨error | c, between⟩
    · rw [hlong] at hcalls
      exact hcalls
    · rw [hlong] at hcalls
      exact hcalls.trans ((hgrows c).extends_calls between)

theorem stop {action : Run σ α} (hcloses : ∀ state, Closes Q action state) (hgrows : long.Grows) :
    CutShort Q action long := by
  intro state
  obtain ⟨a, after, hend, hafter, hsame⟩ := hcloses state
  exact .inr ⟨a, after, hend, hafter, hsame ▸ hgrows.extends_calls state⟩

theorem entering {frame : Frame} {path : List Uid} {f g : List Uid → Run σ α}
    (hnoted : ∀ state, Q state → Q (state.noted (.leave frame)))
    (h : CutShort Q (f (frame.uid :: path)) (g (frame.uid :: path))) :
    CutShort Q (Run.entering frame path f) (Run.entering frame path g) := by
  unfold Run.entering
  split
  · exact refl _
  · refine after fun _ _ _ _ => ?_
    refine h.bind (fun _ => refl _) (fun a state hstate => ?_) fun _ state => ?_
    · exact ⟨a, state.noted (.leave frame), rfl, hnoted state hstate,
        RunState.calls_noted rfl state⟩
    · exact List.prefix_append _ _

end CutShort

end Run

/-- No condition that another one of its table reads runs an operation, wherever `top` can come. -/
def Script.ReadsNoOperations (script : Script) (top : Uid) : Prop :=
  ∀ ⦃uid condition owner work : Uid⦄ ⦃operation : Conditional⦄ ⦃row read : ConditionRow⦄,
    script.Within top uid → script.HasRow uid operation condition row → owner ∈ row.owners →
    WorkKind.of? owner = some .condition → script.HasRow uid operation owner read →
    read.work = some work → WorkKind.of? work = some .operation →
    ¬ script.operations.contains work

def Executor.matching (executor : Executor σ) (policy : MatchPolicy) : Executor σ :=
  { executor with policy }

namespace Engine

open Run

def matching (engine : Engine σ) (policy : MatchPolicy) : Engine σ :=
  ⟨engine.executor.matching policy, engine.script⟩

structure CutBelow (engine : Engine σ) (top : Uid) (lower upper : Below σ) : Prop where
  operation {uid : Uid} (depth : Nat) (path : List Uid) : engine.script.Within top uid →
    engine.script.operations.contains uid →
    CutShort (RunState.Matched uid) (lower.operation uid depth path)
      (upper.operation uid depth path)
  condition {uid condition : Uid} {operation : Conditional} {row : ConditionRow} (depth : Nat)
      (path : List Uid) : engine.script.Within top uid →
    engine.script.HasRow uid operation condition row →
    lower.condition operation condition depth path = upper.condition operation condition depth path
  grows : PairsBelow .same (fun _ => True) (engine.matching .all) (engine.matching .all) upper upper

namespace CutBelow

variable {engine : Engine σ} {top uid condition : Uid} {lower upper : Below σ}
  {operation : Conditional} {row : ConditionRow}

theorem runAction_eq
    (hwork : ∀ work, row.work = some work → WorkKind.of? work = some .operation →
      ¬ engine.script.operations.contains work) (referencedBy : Uid) (depth : Nat)
    (path : List Uid) :
    engine.runAction lower row referencedBy depth path =
      engine.runAction upper row referencedBy depth path := by
  refine Run.parametric_eq.runAction engine upper referencedBy fun work hrow => ?_
  unfold Engine.runWork
  split
  case isTrue hkind => rw [if_neg (hwork work hrow hkind), if_neg (hwork work hrow hkind)]
  case isFalse => rfl

theorem evaluate_eq (h : engine.CutBelow top lower upper)
    (hreads : engine.script.ReadsNoOperations top) (hwithin : engine.script.Within top uid)
    (hrow : engine.script.HasRow uid operation condition row) (depth : Nat) (path : List Uid) :
    engine.evaluate lower operation condition depth path =
      engine.evaluate upper operation condition depth path := by
  have hrows : ∀ path, engine.evaluateRow lower operation row depth path =
      engine.evaluateRow upper operation row depth path := by
    intro path
    refine Run.parametric_eq.evaluateRow engine upper operation fun operand hmem => ?_
    refine Run.parametric_eq.operand engine upper rfl rfl fun owner read howner hkind hread => ?_
    have hread' : engine.script.HasRow uid operation owner read := ⟨hrow.get_operation, hread⟩
    have hmem' : owner ∈ row.owners := List.mem_filterMap.mpr ⟨operand, hmem, howner⟩
    exact ⟨h.condition _ _ hwithin hread', runAction_eq (fun work hwork hoperation =>
      hreads hwithin hrow hmem' hkind hread' hwork hoperation) owner _ path⟩
  refine Run.bind_congr fun state found after hfound => ?_
  cases (get?_of_findCondition hfound).symm.trans hrow.get_row
  simp only [hrows]

theorem runAction (h : engine.CutBelow top lower upper) (hwithin : engine.script.Within top uid)
    (hrow : engine.script.HasRow uid operation condition row) (referencedBy : Uid) (depth : Nat)
    (path : List Uid) :
    CutShort (fun _ => True) (engine.runAction lower row referencedBy depth path)
      (engine.runAction upper row referencedBy depth path) := by
  unfold Engine.runAction
  split
  case h_1 => exact .refl _
  case h_2 work hwork =>
    have hrun : CutShort (fun _ => True) (engine.runWork lower work referencedBy depth path)
        (engine.runWork upper work referencedBy depth path) := by
      unfold Engine.runWork
      split
      · split
        case isTrue hcontains =>
          have hnested := Script.Within.work hwithin hrow hwork hcontains
          exact (h.operation depth path hnested hcontains).imp fun _ _ => trivial
        case isFalse => exact .refl _
      · exact .refl _
    refine hrun.bind (fun _ => .refl _) (fun _ state _ => ?_) fun _ _ => List.prefix_refl _
    exact ⟨some work, state, rfl, trivial, rfl⟩

theorem closes_record (uid condition : Uid) (trace : Trace) (work : Option Uid)
    (matched : List Uid) (state : RunState σ) :
    Closes (RunState.Matched uid) (do
      record ⟨uid, condition, trace, true, work⟩
      return matched) state :=
  ⟨matched, state.recorded ⟨uid, condition, trace, true, work⟩, rfl,
    ⟨_, List.mem_append_right _ List.mem_cons_self, rfl, rfl⟩, rfl⟩

theorem runConditions (h : engine.CutBelow top lower upper)
    (hwithin : engine.script.Within top uid)
    (hoperation : engine.script.operations.get? uid = some (.conditional operation))
    (depth : Nat) (path conditions matched : List Uid) :
    CutShort (RunState.Matched uid)
      ((engine.matching .firstMatch).runConditions lower uid operation depth path conditions
        matched)
      ((engine.matching .all).runConditions upper uid operation depth path conditions matched) := by
  have hgrows : ∀ conditions matched, ((engine.matching .all).runConditions upper uid operation
      depth path conditions matched).Grows := fun conditions matched =>
    ((engine.matching .all).coupled_self.runConditions h.grows trivial hoperation rfl depth path
      conditions matched).grows
  induction conditions generalizing matched with
  | nil => exact .refl _
  | cons condition conditions ih =>
    unfold Engine.runConditions
    split
    case h_1 => exact .refl _
    case h_2 row hfound =>
      have hrow : engine.script.HasRow uid operation condition row := ⟨hoperation, hfound⟩
      rw [h.condition depth path hwithin hrow]
      refine .after fun _ trace _ _ => ?_
      split
      case isTrue =>
        refine (h.runAction hwithin hrow condition (depth + 1) path).bind (fun work => ?_)
          (fun work state _ => closes_record uid condition trace work _ state) fun work state => ?_
        · refine .stop (closes_record uid condition trace work _) fun state => ?_
          exact hgrows conditions (matched ++ [condition])
            (state.recorded ⟨uid, condition, trace, true, work⟩)
        · exact hgrows conditions (matched ++ [condition])
            (state.recorded ⟨uid, condition, trace, true, work⟩)
      case isFalse => exact .after fun _ _ _ _ => ih matched

theorem runOperation (h : engine.CutBelow top lower upper)
    (hwithin : engine.script.Within top uid) (depth : Nat) (path : List Uid) :
    CutShort (RunState.Matched uid)
      ((engine.matching .firstMatch).runOperation lower uid depth path)
      ((engine.matching .all).runOperation upper uid depth path) := by
  refine .after fun state operation after hfound => ?_
  have hoperation := get?_of_findOperation hfound
  refine CutShort.bind (.entering (fun _ hstate => hstate)
    (h.runConditions hwithin hoperation depth _ operation.order [])) (fun _ => .refl _)
    (fun matched state hstate => ?_) fun matched state => List.prefix_append _ _
  exact ⟨(), state.stored uid (operationResult matched), rfl, hstate,
    RunState.calls_noted rfl state⟩

theorem runListedBy (h : engine.CutBelow top lower upper) :
    CutShort (RunState.Matched top) ((engine.matching .firstMatch).runListedBy lower [top])
      ((engine.matching .all).runListedBy upper [top]) := by
  unfold Engine.runListedBy
  refine CutShort.bind ?_ (fun _ => .refl _) (fun _ state hstate => ⟨(), state, rfl, hstate, rfl⟩)
    fun _ _ => List.prefix_refl _
  change CutShort _ (if engine.script.operations.contains top then _ else _)
    (if engine.script.operations.contains top then _ else _)
  split
  case isTrue hcontains => exact h.operation 0 [] .top hcontains
  case isFalse => exact .refl _

end CutBelow

/-- Below `top` both policies go side by side at any depth of the recursion. -/
theorem cutBelow_unfold (engine : Engine σ) {top : Uid}
    (hreads : engine.script.ReadsNoOperations top) (room : Nat) :
    engine.CutBelow top ((engine.matching .firstMatch).unfold refusing room)
      ((engine.matching .all).unfold refusing room) := by
  induction room with
  | zero =>
    exact ⟨fun _ _ _ _ => .refl _, fun _ _ _ _ => rfl, (engine.matching .all).pairsBelow_self 0⟩
  | succ room ih =>
    exact ⟨fun depth path hwithin _ => ih.runOperation hwithin depth path,
      fun depth path hwithin hrow => ih.evaluate_eq hreads hwithin hrow depth path,
      (engine.matching .all).pairsBelow_self (room + 1)⟩

theorem cutShort_runAll (engine : Engine σ) {top : Uid}
    (hreads : engine.script.ReadsNoOperations top) :
    CutShort (RunState.Matched top) ((engine.matching .firstMatch).runAll [top])
      ((engine.matching .all).runAll [top]) := by
  have hroom : ∀ policy, (engine.matching policy).script.keyCount < engine.script.keyCount + 1 :=
    fun _ => Nat.lt_succ_self _
  rw [← (engine.matching .firstMatch).runListedBy_unfold refusing (hroom _),
    ← (engine.matching .all).runListedBy_unfold refusing (hroom _)]
  exact (engine.cutBelow_unfold hreads _).runListedBy

end Engine

namespace Script

variable {script : Script} {top : Uid}

theorem ReadsNoOperations.reordered (h : script.ReadsNoOperations top) (order : OperationOrder) :
    { script with order := order : Script }.ReadsNoOperations top := by
  intro uid condition owner work operation row read hwithin hrow howner hkind hread
  exact h hwithin.of_reordered ⟨hrow.get_operation, hrow.get_row⟩ howner hkind
    ⟨hread.get_operation, hread.get_row⟩

theorem readsNoOperations_of_rows
    (h : ∀ entry ∈ script.conditionals, ∀ row ∈ entry.2.conditions.entries,
      ∀ owner ∈ row.2.owners, ∀ read ∈ (entry.2.conditions.get? owner).toList,
        ∀ work ∈ read.work.toList, ¬ script.operations.contains work) (top : Uid) :
    script.ReadsNoOperations top := by
  intro uid condition owner work operation row read _ hrow howner _ hread hwork _
  have hentry : (uid, operation) ∈ script.conditionals :=
    mem_conditionals_iff.mpr hrow.get_operation
  exact h _ hentry _ (Table.get?_eq_some_iff.mp hrow.get_row) owner howner read
    (Option.mem_toList.mpr hread.get_row) work (Option.mem_toList.mpr hwork)

end Script

/-- Where conditions that are read run no operations, the run that stops at first matches makes the
first calls of the run that evaluates all. If it fails, or if no condition that its operation lists
has held, the other run is the same. -/
theorem Executor.firstMatch_executeOne (executor : Executor σ) {script : Script} {top : Uid}
    (hreads : script.ReadsNoOperations top) (results : Table Json) (runners : σ) :
    let first := (executor.matching .firstMatch).executeOne script top results runners
    let all := (executor.matching .all).executeOne script top results runners
    first.2.calls <+: all.2.calls ∧
      (∀ error, first.1 = .error error → all = first) ∧
      ((∀ r ∈ first.2.records, r.operation = top → r.matched = false) → all = first) := by
  intro first all
  let engine : Engine σ := ⟨executor, { script with order := ⟨[top], List.nodup_singleton top⟩ }⟩
  have hcut : all = first ∨ ∃ a after, first = (.ok a, after) ∧ after.Matched top ∧
      after.calls <+: all.2.calls :=
    engine.cutShort_runAll (hreads.reordered _) { results, runners }
  generalize first = x at hcut ⊢
  rcases hcut with heq | ⟨a, after, rfl, ⟨r, hr, hoperation, hmatched⟩, hcalls⟩
  · exact ⟨heq ▸ List.prefix_refl _, fun _ _ => heq, fun _ => heq⟩
  · refine ⟨hcalls, fun _ herror => (nomatch herror), fun hnone => ?_⟩
    exact nomatch hmatched.symm.trans (hnone r hr hoperation)

def Script.overlapping : Script where
  operations := Table.ofList [
    ("op_1", .conditional {
      conditions := Table.ofList [
        ("cond_1", { left := some (.static (.bool true)), work := some "op_2" }),
        ("cond_2", { left := some (.static (.bool true)), work := some "step_1" })]
      order := ["cond_1", "cond_2"] }),
    ("op_2", .conditional {
      conditions := Table.ofList [
        ("cond_3", { left := some (.static (.bool true)), work := some "step_1" }),
        ("cond_4", {
          left := some (.internal "cond_3" Operand.conditionKey), work := some "step_2" }),
        ("cond_5", { left := some (.static (.bool true)), work := some "step_3" })]
      order := ["cond_4", "cond_5"] })]
  steps := Table.ofList [
    ("step_1", ⟨"step_1", .native, .native .null, none, [], 0⟩),
    ("step_2", ⟨"step_2", .native, .native .null, none, [], 0⟩),
    ("step_3", ⟨"step_3", .native, .native .null, none, [], 0⟩)]

/-- The first match of the inner operation ends the outer one too. With the limit 1 the condition
that is read is too deep under either policy. -/
theorem Script.overlapping_firstMatch :
    let run := fun limit policy => ((Executor.silent.limited limit).matching policy).executeOne
      Script.overlapping "op_1" ∅ ()
    let called := fun limit policy => (run limit policy).2.calls.map fun call => call.2.1.id
    Script.overlapping.ReadsNoOperations "op_1" ∧
      called 64 .firstMatch = ["step_1", "step_2"] ∧
      called 64 .all = ["step_1", "step_2", "step_3", "step_1"] ∧
      (run 64 .firstMatch).2.calls <+: (run 64 .all).2.calls ∧
      (run 1 .firstMatch).1 = .error (.depthExceeded "cond_3" 1) ∧
      run 1 .all = run 1 .firstMatch := by
  intro run called
  have hreads := Script.overlapping.readsNoOperations_of_rows (by decide) "op_1"
  obtain ⟨hcalls, -, -⟩ := (Executor.silent.limited 64).firstMatch_executeOne hreads ∅ ()
  obtain ⟨-, hfails, -⟩ := (Executor.silent.limited 1).firstMatch_executeOne hreads ∅ ()
  exact ⟨hreads, rfl, rfl, hcalls, rfl, hfails _ rfl⟩

end Workflow
