import Workflow.Proofs.Run.Coupling

set_option autoImplicit false

namespace Workflow

variable {σ : Type}

/-- Every entry of the script stands unchanged in the larger one, which lists the same operations. -/
structure Script.Extends (larger script : Script) : Prop where
  order_eq : script.order = larger.order
  operations : script.operations.entries ⊆ larger.operations.entries
  steps : script.steps.entries ⊆ larger.steps.entries

theorem Table.get?_of_subset {α : Type} {table larger : Table α}
    (h : table.entries ⊆ larger.entries) {key : String} {value : α}
    (hfound : table.get? key = some value) : larger.get? key = some value :=
  get?_eq_some_iff.mpr (h (get?_eq_some_iff.mp hfound))

namespace Coupling

/-- The runs are the same until the first one ends because there is nothing under an identifier. -/
def lacking : Coupling σ := equal (fun error _ _ => ∃ uid, error.Lacks uid) fun h _ => h

theorem finds_lacking {α : Type} {R : α → α → Prop} (hR : ∀ a, R a a) {table larger : Table α}
    (h : table.entries ⊆ larger.entries) (uid : Uid) :
    (lacking : Coupling σ).Finds uid R (table.get? uid) (larger.get? uid) := by
  cases hfound : table.get? uid with
  | some a =>
    rw [Table.get?_of_subset h hfound]
    exact .both (hR a)
  | none =>
    cases larger.get? uid with
    | none => exact .neither
    | some b => exact .second fun _ hlacks _ _ _ => ⟨uid, hlacks⟩

end Coupling

theorem Engine.coupled_extends {script larger : Script} (h : larger.Extends script)
    (executor : Executor σ) :
    Coupled .lacking (fun _ => True) ⟨executor, script⟩ ⟨executor, larger⟩ :=
  coupled_equal executor (Coupling.finds_lacking Operation.Alike.refl h.operations)
    fun uid => (Coupling.finds_lacking Eq.refl h.steps uid).imp fun _ _ hsame => hsame ▸ rfl

/-- A run that does not end because an operation or the work of a condition is missing is the same
with a script that has more in its tables: it ends alike, with the same calls and in the same state.
-/
theorem Executor.executeFrom_eq_of_extends {script larger : Script} (h : larger.Extends script)
    (executor : Executor σ) (results : Table Json) (runners : σ) :
    let run := executor.executeFrom script results runners
    (∀ uid, run.1 ≠ .error (.missingOperation uid)) →
      (∀ work referencedBy, run.1 ≠ .error (.missingWork work referencedBy)) →
      executor.executeFrom larger results runners = run := by
  intro run hoperation hwork
  have hends := (Engine.coupled_extends h executor).executeFrom_ends h.order_eq results
    runners runners rfl
  rcases hends.eq_or_parted (fun _ _ h => h) with heq | ⟨error, herror, uid, hlacks⟩
  · exact heq.symm
  · cases hlacks with
    | operation => exact absurd herror (hoperation uid)
    | work referencedBy => exact absurd herror (hwork uid referencedBy)

def Script.compact : Script where
  order := (OperationOrder.empty.insert "op_1").1
  operations := Table.ofList [
    ("op_1", .conditional {
      conditions := Table.ofList [
        ("cond_1", { left := some (.static (.bool true)), work := some "step_1" }),
        ("cond_2", { left := some (.static (.bool true)), work := some "op_2" })]
      order := ["cond_1", "cond_2"] }),
    ("op_2", .conditional {
      conditions := Table.ofList [("cond_3", { left := some (.internal "step_1" "output") })]
      order := ["cond_3"] })]
  steps := Table.ofList [("step_1", ⟨"step_1", .native, .native .null, none, [], 0⟩)]

def Script.padded : Script where
  order := Script.compact.order
  operations := Script.compact.operations.merge (Table.ofList [
    ("cond_1", .conditional { conditions := ∅, order := ["cond_1"] }),
    ("step_1", .unsupported ⟨"step_1", "loop", .null⟩)])
  steps := Script.compact.steps.merge (Table.ofList [
    ("cond_3", ⟨"cond_3", .native, .native .null, none, [], 0⟩),
    ("op_2", ⟨"op_2", .native, .native .null, none, [], 0⟩)])

def Executor.agreeing : Executor Unit where
  defaultRunner := some fun _ _ =>
    (.ok (.object [("output", .object [("result", .bool true)])]), ())

theorem Script.padded_executeFrom_eq_of_extends :
    let shallow : Executor Unit := { Executor.agreeing with maxDepth := 0 }
    let run := Executor.agreeing.executeFrom Script.compact ∅ ()
    let cut := shallow.executeFrom Script.compact ∅ ()
    Script.padded.Extends Script.compact ∧ Script.padded ≠ Script.compact ∧ run.1 = .ok () ∧
      Executor.agreeing.executeFrom Script.padded ∅ () = run ∧
      cut.1 = .error (.depthExceeded "op_2" 0) ∧ shallow.executeFrom Script.padded ∅ () = cut := by
  intro shallow run cut
  have hextends : Script.padded.Extends Script.compact := ⟨rfl, by decide, by decide⟩
  have hok : run.1 = .ok () := rfl
  have hcut : cut.1 = .error (.depthExceeded "op_2" 0) := rfl
  refine ⟨hextends, by decide, hok, ?_, hcut, ?_⟩
  · exact Executor.executeFrom_eq_of_extends hextends Executor.agreeing ∅ ()
      (fun _ herror => nomatch hok.symm.trans herror)
      fun _ _ herror => nomatch hok.symm.trans herror
  · exact Executor.executeFrom_eq_of_extends hextends shallow ∅ ()
      (fun _ herror => nomatch hcut.symm.trans herror)
      fun _ _ herror => nomatch hcut.symm.trans herror

end Workflow
