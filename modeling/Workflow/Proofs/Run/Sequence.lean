import Workflow.Proofs.Run.Coupling

/-!
Runs one after the other. A run looks neither at what was written down before it nor at the order
of its script, and it leaves nothing open; so an order can be run in two parts, the second one on
top of what the first one left.
-/

set_option autoImplicit false

namespace Workflow

variable {σ : Type}

def RunState.following (earlier state : RunState σ) : RunState σ :=
  { state with
    records := earlier.records ++ state.records
    journal := earlier.journal ++ state.journal }

/-- The second state is that of a run which began where `earlier` ended. What it has for the runners
is similar to what the first state has, and so are the results, as far as they count. -/
structure RunState.Follows (earlier : RunState σ) (counts : Uid → Prop) (similar : σ → σ → Prop)
    (s t : RunState σ) : Prop where
  records_eq : t.records = earlier.records ++ s.records
  journal_eq : t.journal = earlier.journal ++ s.journal
  runners : similar s.runners t.runners
  results (uid : Uid) : counts uid → s.results.get? uid = t.results.get? uid

theorem RunState.Follows.eq_following {earlier s t : RunState σ}
    (h : RunState.Follows earlier (fun _ => True) Eq s t) : t = earlier.following s := by
  obtain ⟨results, records, journal, runners⟩ := t
  have hresults : results = s.results := Table.ext_get? fun key => (h.results key trivial).symm
  have hrunners : runners = s.runners := h.runners.symm
  rw [RunState.following, hresults, hrunners, ← h.records_eq, ← h.journal_eq]

namespace Coupling

variable {earlier : RunState σ} {counts : Uid → Prop} {similar : σ → σ → Prop}

def following (earlier : RunState σ) (counts : Uid → Prop) (similar : σ → σ → Prop) :
    Coupling σ where
  Abreast := RunState.Follows earlier counts similar
  Parted _ _ _ := False
  noted event h :=
    ⟨h.records_eq, by simp [RunState.noted, h.journal_eq], h.runners, h.results⟩
  stored uid value h := by
    refine ⟨h.records_eq, by simp [RunState.stored, RunState.noted, h.journal_eq], h.runners, ?_⟩
    intro key hkey
    simp [RunState.stored, h.results key hkey]
  recorded record h :=
    ⟨by simp [RunState.recorded, h.records_eq], h.journal_eq, h.runners, h.results⟩
  grown h _ := h

theorem answers_following {runner : StepRunner σ}
    (h : ∀ step (s t : σ), similar s t →
      (runner step s).1 = (runner step t).1 ∧ similar (runner step s).2 (runner step t).2) :
    (following earlier counts similar).Answers runner := by
  intro slot step s t hfollows
  obtain ⟨hanswer, hsimilar⟩ := h step s.runners t.runners hfollows.runners
  refine ⟨hanswer, fun answer => ⟨hfollows.records_eq, ?_, hsimilar, hfollows.results⟩⟩
  simp [RunState.called, RunState.noted, hfollows.journal_eq]

end Coupling

namespace Engine

def reordered (engine : Engine σ) (order : OperationOrder) : Engine σ :=
  { engine with script := { engine.script with order } }

variable {earlier : RunState σ} {counts domain : Uid → Prop} {similar : σ → σ → Prop}

theorem coupled_following (engine : Engine σ) (order other : OperationOrder)
    (hanswers : ∀ kind slot runner, engine.executor.runnerFor? kind = some (slot, runner) →
      ∀ step (s t : σ), similar s t →
        (runner step s).1 = (runner step t).1 ∧ similar (runner step s).2 (runner step t).2)
    (hreads : ∀ uid condition operation row owner, domain uid →
      engine.script.HasRow uid operation condition row → owner ∈ row.owners → counts owner)
    (hwork : ∀ uid condition operation row work, domain uid →
      engine.script.HasRow uid operation condition row → row.work = some work →
      engine.script.operations.contains work → domain work) :
    Coupled (.following earlier counts similar) domain (engine.reordered order)
      (engine.reordered other) := by
  refine coupled_of_tables rfl rfl rfl rfl ?_ (pairs_checkDepth_of_eq rfl) ?_ ?_
  · exact fun kind slot runner hfound =>
      Coupling.answers_following (hanswers kind slot runner hfound)
  · intro uid condition operation row owner hdomain hrow howner s t hfollows
    have hcounts := hreads uid condition operation row owner hdomain
      ⟨hrow.get_operation, hrow.get_row⟩ howner
    exact hfollows.results owner hcounts
  · exact fun uid condition operation row work hdomain hrow =>
      hwork uid condition operation row work hdomain ⟨hrow.get_operation, hrow.get_row⟩

theorem Coupled.follows {left right : Engine σ}
    (h : Coupled (.following earlier counts similar) domain left right) (uids : List Uid)
    (hdomain : ∀ uid ∈ uids, domain uid) {s t : RunState σ}
    (hst : RunState.Follows earlier counts similar s t) :
    ((left.runAll uids).outcome s).1 = ((right.runAll uids).outcome t).1 ∧
      RunState.Follows earlier counts similar ((left.runAll uids).outcome s).2
        ((right.runAll uids).outcome t).2 := by
  have hends := (h.runAll uids hdomain).ends hst
  generalize (left.runAll uids).outcome s = x at hends ⊢
  generalize (right.runAll uids).outcome t = y at hends ⊢
  cases hends with
  | alike hfollows => exact ⟨rfl, hfollows⟩
  | parted hparted => exact hparted.elim

/-- A run does the same whatever was written down before, and whatever the order of its script. -/
theorem outcome_runAll_following (engine : Engine σ) (order other : OperationOrder)
    (uids : List Uid) (earlier state : RunState σ) :
    ((engine.reordered other).runAll uids).outcome (earlier.following state) =
      ((((engine.reordered order).runAll uids).outcome state).1,
        earlier.following (((engine.reordered order).runAll uids).outcome state).2) := by
  have hcoupled : Coupled (.following earlier (fun _ => True) Eq) (fun _ => True)
      (engine.reordered order) (engine.reordered other) := by
    refine engine.coupled_following order other ?_ ?_ ?_
    · rintro kind slot runner hfound step s t rfl
      exact ⟨rfl, rfl⟩
    · exact fun _ _ _ _ _ _ _ _ => trivial
    · exact fun _ _ _ _ _ _ _ _ _ => trivial
  obtain ⟨hending, hfollows⟩ := hcoupled.follows uids (fun _ _ => trivial)
    (s := state) (t := earlier.following state) ⟨rfl, rfl, rfl, fun _ _ => rfl⟩
  exact Prod.ext hending.symm hfollows.eq_following

theorem runAll_append (engine : Engine σ) (first second : List Uid) :
    engine.runAll (first ++ second) =
      (do
        engine.runAll first
        engine.runAll second) := by
  induction first with
  | nil => simp [runAll]
  | cons uid first ih => simp only [List.cons_append, runAll, ih, bind_assoc]

end Engine

/-- An order can be run in two parts: if the first one fails, so does the whole, in the same way;
and else the whole does what the second part does on top of the results of the first one, with the
runners as that one left them. -/
theorem Executor.executeFrom_append (executor : Executor σ) {script : Script}
    {first second : OperationOrder} (h : script.order.uids = first.uids ++ second.uids)
    (results : Table Json) (runners : σ) :
    executor.executeFrom script results runners =
      match executor.executeFrom { script with order := first } results runners with
      | (.error error, after) => (.error error, after)
      | (.ok (), middle) =>
        let rest :=
          executor.executeFrom { script with order := second } middle.results middle.runners
        (rest.1, middle.following rest.2) := by
  let engine : Engine σ := ⟨executor, script⟩
  let start : RunState σ := { results, runners }
  have hfirst : (engine.runAll first.uids).outcome start =
      ((engine.reordered first).runAll first.uids).outcome start :=
    engine.outcome_runAll_following first script.order first.uids start start
  change (engine.runAll script.order.uids).outcome start =
    match ((engine.reordered first).runAll first.uids).outcome start with
    | (.error error, after) => (.error error, after)
    | (.ok (), middle) =>
      let rest := ((engine.reordered second).runAll second.uids).outcome
        { results := middle.results, runners := middle.runners }
      (rest.1, middle.following rest.2)
  rw [h, engine.runAll_append, Run.outcome_bind, hfirst]
  rcases ((engine.reordered first).runAll first.uids).outcome start with ⟨error | _, middle⟩
  · rfl
  · have hmiddle : middle = middle.following
        { results := middle.results, runners := middle.runners } := by
      simp [RunState.following]
    dsimp only
    conv => lhs; rw [hmiddle]
    exact engine.outcome_runAll_following second script.order second.uids middle _

def Script.relay : Script where
  order := ((OperationOrder.empty.insert "op_1").1.insert "op_2").1
  operations := Table.ofList [
    ("op_1", .conditional {
      conditions := Table.ofList [
        ("cond_1", { left := some (.static (.bool true)), work := some "step_1" })]
      order := ["cond_1"] }),
    ("op_2", .conditional {
      conditions := Table.ofList [
        ("cond_2", { left := some (.internal "step_1" "output"), work := some "step_2" })]
      order := ["cond_2"] })]
  steps := Table.ofList [
    ("step_1", ⟨"step_1", .native, .native .null, none, [], 0⟩),
    ("step_2", ⟨"step_2", .native, .native .null, none, [], 0⟩)]

def Executor.counting : Executor Nat where
  defaultRunner := some fun _ count => (.ok (.object [("output", .bool true)]), count + 1)

theorem Script.relay_executeFrom_append :
    let first : OperationOrder := ⟨["op_1"], by decide⟩
    let second : OperationOrder := ⟨["op_2"], by decide⟩
    let part := Executor.counting.executeFrom { Script.relay with order := first } ∅ 0
    let rest := Executor.counting.executeFrom { Script.relay with order := second }
      part.2.results part.2.runners
    Script.relay.order.uids = first.uids ++ second.uids ∧
      Executor.counting.executeFrom Script.relay ∅ 0 = (rest.1, part.2.following rest.2) ∧
      rest.1 = .ok () ∧ (part.2.runners, rest.2.runners) = (1, 2) := by
  intro first second part rest
  have horder : Script.relay.order.uids = first.uids ++ second.uids := rfl
  exact ⟨horder, Executor.counting.executeFrom_append horder ∅ 0, rfl, rfl⟩

end Workflow
