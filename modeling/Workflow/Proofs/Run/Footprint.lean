import Workflow.Proofs.Run.Permission
import Workflow.Proofs.Run.Sequence

/-!
What a run depends on, and what it changes. Both are bounded by what its operations lead to in the
tables: results are stored under these identifiers alone, and other results than those that the
operands name make no difference. So operations that have nothing to do with each other commute.
-/

set_option autoImplicit false

namespace Workflow

variable {σ : Type}

namespace Script

/-- The operations that running `top` can come to. -/
inductive Within (script : Script) (top : Uid) : Uid → Prop
  | top : Within script top top
  | work {uid condition work : Uid} {operation : Conditional} {row : ConditionRow} :
      Within script top uid → script.HasRow uid operation condition row → row.work = some work →
      script.operations.contains work → Within script top work

/-- The operations, conditions and steps that running `top` can come to. -/
inductive Touches (script : Script) (top : Uid) : Uid → Prop
  | operation {uid : Uid} : script.Within top uid → Touches script top uid
  | condition {uid condition : Uid} {operation : Conditional} {row : ConditionRow} :
      script.Within top uid → script.HasRow uid operation condition row →
      Touches script top condition
  | step {uid condition work : Uid} {operation : Conditional} {row : ConditionRow} :
      script.Within top uid → script.HasRow uid operation condition row → row.work = some work →
      script.steps.contains work → Touches script top work

/-- The owners of the operands in the operations that running `top` can come to. -/
def ReadsFrom (script : Script) (top owner : Uid) : Prop :=
  ∃ uid operation condition row, script.Within top uid ∧
    script.HasRow uid operation condition row ∧ owner ∈ row.owners

/-- Neither operation touches what the other one touches or reads from. -/
structure Independent (script : Script) (u v : Uid) : Prop where
  touches {uid : Uid} : script.Touches u uid → ¬ script.Touches v uid
  left {uid : Uid} : script.Touches u uid → ¬ script.ReadsFrom v uid
  right {uid : Uid} : script.Touches v uid → ¬ script.ReadsFrom u uid

variable {script : Script} {order : OperationOrder} {top uid : Uid}

theorem Within.of_reordered (h : { script with order := order : Script }.Within top uid) :
    script.Within top uid := by
  induction h with
  | top => exact .top
  | work _ hrow hwork hcontains ih =>
    exact .work ih ⟨hrow.get_operation, hrow.get_row⟩ hwork hcontains

theorem Touches.of_reordered (h : { script with order := order : Script }.Touches top uid) :
    script.Touches top uid := by
  cases h with
  | operation hwithin => exact .operation hwithin.of_reordered
  | condition hwithin hrow =>
    exact .condition hwithin.of_reordered ⟨hrow.get_operation, hrow.get_row⟩
  | step hwithin hrow hwork hcontains =>
    exact .step hwithin.of_reordered ⟨hrow.get_operation, hrow.get_row⟩ hwork hcontains

def Opens (script : Script) (frames : List Frame) : Prop :=
  ∀ uid, .operation uid ∈ frames → ∃ top ∈ script.order.uids, script.Within top uid

theorem Opens.within_of_calls {frames : List Frame} (h : script.Opens frames)
    (hcalls : script.Calls frames (.operation uid)) :
    ∃ top ∈ script.order.uids, script.Within top uid := by
  cases hcalls with
  | listed hlisted => exact ⟨uid, hlisted, .top⟩
  | work hrow _ hwork hcontains _ =>
    obtain ⟨top, hlisted, hwithin⟩ := h _ List.mem_cons_self
    exact ⟨top, hlisted, .work hwithin hrow hwork hcontains⟩
  | operandWork hopen _ _ hrow hwork hcontains _ =>
    obtain ⟨top, hlisted, hwithin⟩ := h _ (List.mem_cons_of_mem _ hopen)
    exact ⟨top, hlisted, .work hwithin hrow hwork hcontains⟩

end Script

/-- What `top` can come to lies within `touched`, and what is read there within `owners`: bounds
that can be checked row by row. -/
def Script.Bounds (script : Script) (top : Uid) (touched owners : List Uid) : Prop :=
  top ∈ touched ∧
    ∀ entry ∈ script.conditionals, entry.1 ∈ touched → ∀ row ∈ entry.2.conditions.entries,
      row.1 ∈ touched ∧ (∀ work ∈ row.2.work.toList, work ∈ touched) ∧
        ∀ owner ∈ row.2.owners, owner ∈ owners

instance (script : Script) (top : Uid) (touched owners : List Uid) :
    Decidable (script.Bounds top touched owners) :=
  inferInstanceAs (Decidable (_ ∧ _))

namespace Script.Bounds

variable {script : Script} {top uid condition : Uid} {touched owners : List Uid}

theorem of_hasRow {operation : Conditional} {row : ConditionRow}
    (h : script.Bounds top touched owners) (huid : uid ∈ touched)
    (hrow : script.HasRow uid operation condition row) :
    condition ∈ touched ∧ (∀ work, row.work = some work → work ∈ touched) ∧
      ∀ owner ∈ row.owners, owner ∈ owners := by
  have hentry : (uid, operation) ∈ script.conditionals :=
    mem_conditionals_iff.mpr hrow.get_operation
  obtain ⟨hcondition, hwork, howners⟩ :=
    h.2 _ hentry huid _ (Table.get?_eq_some_iff.mp hrow.get_row)
  exact ⟨hcondition, fun work hfound => hwork work (by simp [hfound]), howners⟩

theorem of_within (h : script.Bounds top touched owners) (hwithin : script.Within top uid) :
    uid ∈ touched := by
  induction hwithin with
  | top => exact h.1
  | work _ hrow hwork _ ih => exact (h.of_hasRow ih hrow).2.1 _ hwork

theorem of_touches (h : script.Bounds top touched owners) (htouches : script.Touches top uid) :
    uid ∈ touched := by
  cases htouches with
  | operation hwithin => exact h.of_within hwithin
  | condition hwithin hrow => exact (h.of_hasRow (h.of_within hwithin) hrow).1
  | step hwithin hrow hwork => exact (h.of_hasRow (h.of_within hwithin) hrow).2.1 _ hwork

theorem of_readsFrom (h : script.Bounds top touched owners) (hreads : script.ReadsFrom top uid) :
    uid ∈ owners := by
  obtain ⟨_, _, _, _, hwithin, hrow, howner⟩ := hreads
  exact (h.of_hasRow (h.of_within hwithin) hrow).2.2 uid howner

theorem independent {u v : Uid} {touched' owners' : List Uid}
    (hu : script.Bounds u touched owners) (hv : script.Bounds v touched' owners')
    (h : ∀ uid ∈ touched, uid ∉ touched' ∧ uid ∉ owners') (h' : ∀ uid ∈ touched', uid ∉ owners) :
    script.Independent u v where
  touches htouches hother := (h _ (hu.of_touches htouches)).1 (hv.of_touches hother)
  left htouches hreads := (h _ (hu.of_touches htouches)).2 (hv.of_readsFrom hreads)
  right htouches hreads := h' _ (hv.of_touches htouches) (hu.of_readsFrom hreads)

end Script.Bounds

def RunState.Confined (script : Script) (state : RunState σ) : Prop :=
  ∀ key value, .store key value ∈ state.journal → ∃ top ∈ script.order.uids, script.Touches top key

namespace Engine

variable {engine : Engine σ} {moment next : Moment σ}

theorem Move.opens (hmove : engine.Move moment next) (h : engine.script.Opens moment.frames) :
    engine.script.Opens next.frames := by
  cases hmove with
  | enterOperation hcalls =>
    intro uid hmem
    rcases List.mem_cons.mp hmem with heq | hmem
    · cases heq
      exact h.within_of_calls hcalls
    · exact h uid hmem
  | enterCondition =>
    intro uid hmem
    rcases List.mem_cons.mp hmem with heq | hmem
    · cases heq
    · exact h uid hmem
  | leave => exact fun uid hmem => h uid (List.mem_cons_of_mem _ hmem)
  | visitOperation | visitCondition | read | call | storeCondition | storeOperation | record =>
    exact h

theorem confined_of_stored {script : Script} {state : RunState σ} {key : Uid} {value : Json}
    (h : state.Confined script) (hkey : ∃ top ∈ script.order.uids, script.Touches top key) :
    (state.stored key value).Confined script := by
  intro other stored hmem
  rcases List.mem_append.mp hmem with hmem | hmem
  · exact h other stored hmem
  · cases List.mem_singleton.mp hmem
    exact hkey

theorem confined_of_noted {script : Script} {state after : RunState σ} {event : Event}
    (h : state.Confined script) (hjournal : after.journal = state.journal ++ [event])
    (hevent : ∀ key value, event ≠ .store key value) : after.Confined script := by
  intro key value hmem
  rw [hjournal] at hmem
  rcases List.mem_append.mp hmem with hmem | hmem
  · exact h key value hmem
  · exact absurd (List.mem_singleton.mp hmem).symm (hevent key value)

theorem Move.confined (hmove : engine.Move moment next)
    (hopens : engine.script.Opens moment.frames) (h : moment.state.Confined engine.script) :
    next.state.Confined engine.script := by
  cases hmove with
  | visitOperation | visitCondition | enterOperation | enterCondition | leave | read =>
    exact confined_of_noted h rfl (by simp)
  | @call _ _ work step _ _ _ _ hpermits hstep =>
    obtain ⟨uid, operation, condition, row, hopen, hrow, hwork, -⟩ := hpermits
    obtain ⟨top, hlisted, hwithin⟩ := hopens uid hopen
    have hcontains : engine.script.steps.contains work := by simp [Table.contains, hstep]
    exact confined_of_stored (confined_of_noted h rfl (by simp))
      ⟨top, hlisted, .step hwithin hrow hwork hcontains⟩
  | storeCondition hopen hrow =>
    obtain ⟨top, hlisted, hwithin⟩ := hopens _ hopen
    exact confined_of_stored h ⟨top, hlisted, .condition hwithin hrow⟩
  | storeOperation _ hcalls =>
    obtain ⟨top, hlisted, hwithin⟩ := hopens.within_of_calls hcalls
    exact confined_of_stored h ⟨top, hlisted, .operation hwithin⟩
  | record => exact h

theorem Fails.confined {script : Script} {error : RunError} {after : RunState σ}
    (hfail : engine.Fails moment error after) (h : moment.state.Confined script) :
    after.Confined script := by
  cases hfail with
  | call => exact confined_of_noted h rfl (by simp)
  | notListed | unsupported | missingCondition | missingWork | cyclic | tooDeep | noResult
  | noField | noConditionField | noRunner => exact h

end Engine

theorem Executor.executeFrom_confined (executor : Executor σ) (script : Script)
    (results : Table Json) (runners : σ) :
    (executor.executeFrom script results runners).2.Confined script := by
  obtain ⟨_, -, hconfined⟩ := executor.exists_frames script results runners
    (P := fun moment => script.Opens moment.frames ∧ moment.state.Confined script)
    ⟨fun _ hmem => (nomatch hmem), fun _ _ hmem => (nomatch hmem)⟩
    (fun _ _ hmove h => ⟨hmove.opens h.1, hmove.confined h.1 h.2⟩)
    fun _ _ _ hfail h => ⟨h.1, hfail.confined h.2⟩
  exact hconfined

/-- What the runners give depends on the step alone. -/
def Executor.Steady (executor : Executor σ) : Prop :=
  ∀ kind slot runner, executor.runnerFor? kind = some (slot, runner) →
    ∀ step (s t : σ), (runner step s).1 = (runner step t).1

def Executor.executeOne (executor : Executor σ) (script : Script) (top : Uid)
    (results : Table Json) (runners : σ) : Except RunError Unit × RunState σ :=
  executor.executeFrom { script with order := ⟨[top], List.nodup_singleton top⟩ } results runners

namespace Executor

variable {executor : Executor σ} {script : Script} {u v top uid : Uid} {results : Table Json}
  {runners : σ}

theorem latest_stored_executeOne (h : ¬ script.Touches top uid) :
    latest (Event.stored? uid) (executor.executeOne script top results runners).2.journal =
      none := by
  refine latest_eq_none_iff.mpr fun event hmem => ?_
  cases event with
  | store key value =>
    have hne : uid ≠ key := by
      rintro rfl
      obtain ⟨listed, hlisted, htouches⟩ :=
        executor.executeFrom_confined _ results runners uid value hmem
      cases List.mem_singleton.mp hlisted
      exact h htouches.of_reordered
    simp [Event.stored?, hne]
  | _ => rfl

theorem get?_executeOne (h : ¬ script.Touches top uid) :
    (executor.executeOne script top results runners).2.results.get? uid = results.get? uid := by
  obtain ⟨_, htold⟩ := executor.exists_told
    { script with order := ⟨[top], List.nodup_singleton top⟩ } results runners
  let journal := (executor.executeOne script top results runners).2.journal
  calc (executor.executeOne script top results runners).2.results.get? uid
    _ = (replayed results journal).get? uid := congrArg (Table.get? · uid) htold.results_eq.symm
    _ = (latest (Event.stored? uid) journal).or (results.get? uid) := get?_replayed _ _ _
    _ = results.get? uid := by rw [latest_stored_executeOne h, Option.none_or]

/-- After a run that changed nothing of what it reads from, an operation does what it would have
done before. -/
theorem follows_executeOne (hsteady : executor.Steady) (order : OperationOrder) (runners : σ)
    (middle : RunState σ)
    (hunread : ∀ uid, script.ReadsFrom v uid → results.get? uid = middle.results.get? uid) :
    let alone := executor.executeOne script v results runners
    let after := (Engine.runAll ⟨executor, { script with order := order }⟩ [v]).outcome middle
    alone.1 = after.1 ∧
      RunState.Follows middle (script.ReadsFrom v) (fun _ _ => True) alone.2 after.2 := by
  let engine : Engine σ := ⟨executor, script⟩
  have hcoupled : Engine.Coupled (.following middle (script.ReadsFrom v) fun _ _ => True)
      (script.Within v) (engine.reordered ⟨[v], List.nodup_singleton v⟩)
      (engine.reordered order) := by
    refine engine.coupled_following _ _ ?_ ?_ ?_
    · exact fun kind slot runner hfound step s t _ =>
        ⟨hsteady kind slot runner hfound step s t, trivial⟩
    · exact fun uid condition operation row owner hwithin hrow howner =>
        ⟨uid, operation, condition, row, hwithin, hrow, howner⟩
    · exact fun uid condition operation row work hwithin hrow hwork hcontains =>
        .work hwithin hrow hwork hcontains
  refine hcoupled.follows [v] (fun uid huid => ?_) ⟨by simp, by simp, trivial, hunread⟩
  cases List.mem_singleton.mp huid
  exact .top

theorem executeFrom_pair (hsteady : executor.Steady)
    (hapart : ∀ uid, script.Touches u uid → ¬ script.ReadsFrom v uid) {order : OperationOrder}
    (horder : order.uids = [u, v]) (results : Table Json) (runners : σ) :
    let first := executor.executeOne script u results runners
    let second := executor.executeOne script v results runners
    let run := executor.executeFrom { script with order := order } results runners
    (run.1 = .ok () ↔ first.1 = .ok () ∧ second.1 = .ok ()) ∧
      (run.1 = .ok () → run.2.records = first.2.records ++ second.2.records ∧
        run.2.journal = first.2.journal ++ second.2.journal) := by
  intro first second run
  let engine : Engine σ := ⟨executor, { script with order := order }⟩
  let start : RunState σ := { results, runners }
  have hfirst : (engine.runAll [u]).outcome start = first :=
    engine.outcome_runAll_following ⟨[u], List.nodup_singleton u⟩ order [u] start start
  have hrun : run = (engine.runAll ([u] ++ [v])).outcome start := by
    rw [List.singleton_append, ← horder]
    rfl
  rw [Engine.runAll_append, Run.outcome_bind, hfirst] at hrun
  have hkept : ∀ uid, script.ReadsFrom v uid → results.get? uid = first.2.results.get? uid :=
    fun uid hreads => (get?_executeOne fun htouches => hapart uid htouches hreads).symm
  rcases first with ⟨error | _, middle⟩
  · simp [hrun]
  · change run = (engine.runAll [v]).outcome middle at hrun
    obtain ⟨hending, hfollows⟩ := follows_executeOne hsteady order runners middle hkept
    have hsecond : run.1 = second.1 := by rw [hrun, hending]
    refine ⟨by simp [hsecond], fun _ => ?_⟩
    rw [hrun]
    exact ⟨hfollows.records_eq, hfollows.journal_eq⟩

end Executor

/-- Operations that are independent of each other commute: both orders succeed or neither does, and
if they do, they leave the same results, and the same two segments of records in different order. -/
theorem Executor.executeFrom_comm {executor : Executor σ} (hsteady : executor.Steady)
    {script : Script} {u v : Uid} (hindependent : script.Independent u v)
    {order swapped : OperationOrder} (horder : order.uids = [u, v])
    (hswapped : swapped.uids = [v, u]) (results : Table Json) (runners : σ) :
    let alone := fun uid => executor.executeOne script uid results runners
    let run := executor.executeFrom { script with order := order } results runners
    let other := executor.executeFrom { script with order := swapped } results runners
    (run.1 = .ok () ↔ other.1 = .ok ()) ∧
      (run.1 = .ok () →
        run.2.results = other.2.results ∧
        run.2.records = (alone u).2.records ++ (alone v).2.records ∧
        other.2.records = (alone v).2.records ++ (alone u).2.records) := by
  intro alone run other
  obtain ⟨hrun, hrunSplit⟩ :=
    Executor.executeFrom_pair hsteady (fun _ => hindependent.left) horder results runners
  obtain ⟨hother, hotherSplit⟩ :=
    Executor.executeFrom_pair hsteady (fun _ => hindependent.right) hswapped results runners
  have hiff : run.1 = .ok () ↔ other.1 = .ok () := hrun.trans (and_comm.trans hother.symm)
  refine ⟨hiff, fun hok => ?_⟩
  obtain ⟨hrecords, hjournal⟩ := hrunSplit hok
  obtain ⟨hrecords', hjournal'⟩ := hotherSplit (hiff.mp hok)
  obtain ⟨_, htold⟩ := executor.exists_told { script with order := order } results runners
  obtain ⟨_, htold'⟩ := executor.exists_told { script with order := swapped } results runners
  refine ⟨?_, hrecords, hrecords'⟩
  have hapart : ∀ uid, latest (Event.stored? uid) (alone u).2.journal = none ∨
      latest (Event.stored? uid) (alone v).2.journal = none := by
    intro uid
    by_cases htouches : script.Touches u uid
    · exact .inr (Executor.latest_stored_executeOne (hindependent.touches htouches))
    · exact .inl (Executor.latest_stored_executeOne htouches)
  calc run.2.results
    _ = replayed results run.2.journal := htold.results_eq.symm
    _ = replayed results ((alone u).2.journal ++ (alone v).2.journal) := by rw [← hjournal]
    _ = replayed results ((alone v).2.journal ++ (alone u).2.journal) := replayed_append_comm hapart
    _ = replayed results other.2.journal := by rw [← hjournal']
    _ = other.2.results := htold'.results_eq

def Script.strangers : Script where
  order := ((OperationOrder.empty.insert "op_1").1.insert "op_2").1
  operations := Table.ofList [
    ("op_1", .conditional {
      conditions := Table.ofList [
        ("cond_1", { left := some (.static (.bool true)), work := some "op_3" })]
      order := ["cond_1"] }),
    ("op_2", .conditional {
      conditions := Table.ofList [
        ("cond_2", { left := some (.internal "step_3" "output"), work := some "step_2" })]
      order := ["cond_2"] }),
    ("op_3", .conditional {
      conditions := Table.ofList [
        ("cond_3", { left := some (.static (.bool true)), work := some "step_1" })]
      order := ["cond_3"] })]
  steps := Table.ofList [
    ("step_1", ⟨"step_1", .native, .native .null, none, [], 0⟩),
    ("step_2", ⟨"step_2", .native, .native .null, none, [], 0⟩)]

theorem Script.strangers_independent : Script.strangers.Independent "op_1" "op_2" := by
  have hfirst : Script.strangers.Bounds "op_1"
      ["op_1", "cond_1", "op_3", "cond_3", "step_1"] [] := by decide
  have hsecond : Script.strangers.Bounds "op_2" ["op_2", "cond_2", "step_2"] ["step_3"] := by decide
  exact hfirst.independent hsecond (by decide) (by decide)

theorem Executor.counting_steady : Executor.counting.Steady := by
  intro kind slot runner hfound step s t
  cases hfound
  rfl

theorem Script.strangers_executeFrom_comm :
    let order : OperationOrder := ⟨["op_1", "op_2"], by decide⟩
    let swapped : OperationOrder := ⟨["op_2", "op_1"], by decide⟩
    let results := Table.ofList [("step_3", .object [("output", .bool true)])]
    let alone := fun uid => Executor.counting.executeOne Script.strangers uid results 0
    let run := Executor.counting.executeFrom { Script.strangers with order := order } results 0
    let other := Executor.counting.executeFrom { Script.strangers with order := swapped } results 0
    Executor.counting.Steady ∧ Script.strangers.Independent "op_1" "op_2" ∧
      order.uids = ["op_1", "op_2"] ∧ swapped.uids = ["op_2", "op_1"] ∧
      run.1 = .ok () ∧ other.1 = .ok () ∧ run.2.results = other.2.results ∧
      run.2.records = (alone "op_1").2.records ++ (alone "op_2").2.records ∧
      other.2.records = (alone "op_2").2.records ++ (alone "op_1").2.records ∧
      ((alone "op_1").2.records.length, (alone "op_2").2.records.length) = (2, 1) := by
  intro order swapped results alone run other
  have hok : run.1 = .ok () := rfl
  have horder : order.uids = ["op_1", "op_2"] := rfl
  have hswapped : swapped.uids = ["op_2", "op_1"] := rfl
  obtain ⟨hiff, hsplit⟩ := Executor.executeFrom_comm Executor.counting_steady
    Script.strangers_independent horder hswapped results 0
  obtain ⟨hresults, hrecords, hother⟩ := hsplit hok
  exact ⟨Executor.counting_steady, Script.strangers_independent, horder, hswapped, hok,
    hiff.mp hok, hresults, hrecords, hother, rfl⟩

end Workflow
