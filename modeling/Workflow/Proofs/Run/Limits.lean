import Workflow.Proofs.Run.Coupling

set_option autoImplicit false

namespace Workflow

variable {σ : Type}

/-- The runs are the same until the first one finds a call too deep; from then on the second one
only adds to what the first one had noted. -/
def Coupling.cutOff (limit : Nat) : Coupling σ :=
  equal (fun error s t => (∃ uid, error = .depthExceeded uid limit) ∧ s.journal <+: t.journal)
    fun h hgrown => ⟨h.1, h.2.trans hgrown⟩

def Executor.limited (executor : Executor σ) (limit : Nat) : Executor σ :=
  { executor with maxDepth := limit }

namespace Engine

variable {lower higher : Nat}

theorem pairs_checkDepth (h : lower ≤ higher) (executor : Executor σ) (script : Script) (uid : Uid)
    (depth : Nat) :
    (Coupling.cutOff lower).Pairs (checkDepth ⟨executor.limited lower, script⟩ uid depth)
      (checkDepth ⟨executor.limited higher, script⟩ uid depth) := by
  have hgrows := grows_checkDepth ⟨executor.limited higher, script⟩ uid depth
  refine ⟨hgrows, ?_⟩
  rintro s t rfl
  by_cases hlower : lower < depth
  · -- Too deep for the first run, which ends here, whether the second one does or not.
    have hthrow : checkDepth ⟨executor.limited lower, script⟩ uid depth =
        (throw (.depthExceeded uid lower) : Run σ Unit) := if_pos hlower
    rw [hthrow]
    exact .parted ⟨⟨uid, rfl⟩, hgrows s⟩
  · have hhigher : ¬ higher < depth := by omega
    have hsame : checkDepth ⟨executor.limited higher, script⟩ uid depth =
        checkDepth ⟨executor.limited lower, script⟩ uid depth :=
      (if_neg hhigher).trans (if_neg hlower).symm
    rw [hsame]
    exact .alike rfl

theorem coupled_limited (h : lower ≤ higher) (executor : Executor σ) (script : Script) :
    Coupled (.cutOff lower) (fun _ => True) ⟨executor.limited lower, script⟩
      ⟨executor.limited higher, script⟩ := by
  refine coupled_of_tables rfl rfl rfl rfl ?_ (pairs_checkDepth h executor script) ?_ ?_
  · rintro kind slot runner hfound slot step s t rfl
    exact ⟨rfl, fun _ => rfl⟩
  · rintro uid condition operation row owner hdomain hrow howner s t rfl
    rfl
  · exact fun _ _ _ _ _ _ _ _ _ => trivial

end Engine

def Event.call? : Event → Option (RunnerSlot × Step × Except String Json)
  | .call slot step answer => some (slot, step, answer)
  | _ => none

/-- A lower limit only cuts a run off. With it the run ends as with the higher one, or it finds a
call too deep after some of the calls of runners that the higher limit lets it make. So a run that
is not found too deep is the same with every higher limit. -/
theorem Executor.limited_executeFrom {lower higher : Nat} (h : lower ≤ higher)
    (executor : Executor σ) (script : Script) (results : Table Json) (runners : σ) :
    let low := (executor.limited lower).executeFrom script results runners
    let high := (executor.limited higher).executeFrom script results runners
    (low = high ∨
      (∃ uid, low.1 = .error (.depthExceeded uid lower)) ∧
        low.2.journal <+: high.2.journal ∧
        low.2.journal.filterMap Event.call? <+: high.2.journal.filterMap Event.call?) ∧
      ((∀ uid limit, low.1 ≠ .error (.depthExceeded uid limit)) → high = low) := by
  intro low high
  have hends : (Coupling.cutOff lower).Ends low high :=
    ((Engine.coupled_limited h executor script).runAll script.order.uids fun _ _ => trivial).ends
      (s := { results, runners }) rfl
  generalize low = x at hends ⊢
  generalize high = y at hends ⊢
  cases hends with
  | alike habreast =>
    cases habreast
    exact ⟨.inl rfl, fun _ => rfl⟩
  | parted hparted =>
    obtain ⟨⟨uid, rfl⟩, hjournal⟩ := hparted
    have hcalls := hjournal.filterMap Event.call?
    exact ⟨.inr ⟨⟨uid, rfl⟩, hjournal, hcalls⟩, fun hnot => absurd rfl (hnot uid lower)⟩

def Script.deepening : Script where
  order := (OperationOrder.empty.insert "op_1").1
  operations := Table.ofList [("op_1", .conditional {
    conditions := Table.ofList [
      ("cond_1", { left := some (.static (.bool true)), work := some "step_1" }),
      ("cond_2", { left := some (.internal "cond_3" Operand.conditionKey) }),
      ("cond_3", { left := some (.static (.bool true)), work := some "step_2" })]
    order := ["cond_1", "cond_2"] })]
  steps := Table.ofList [
    ("step_1", ⟨"step_1", .native, .native .null, none, [], 0⟩),
    ("step_2", ⟨"step_2", .native, .native .null, none, [], 0⟩)]

def Executor.silent : Executor Unit where
  defaultRunner := some fun _ _ => (.ok .null, ())

/-- With the limit 0 the run is cut off between its two calls. With 1 it has no need of more. -/
theorem Script.deepening_limited :
    let run := fun limit => (Executor.silent.limited limit).executeFrom Script.deepening ∅ ()
    let calls := fun limit => (run limit).2.journal.filterMap Event.call?
    0 ≤ 1 ∧ (run 0).1 = .error (.depthExceeded "cond_3" 0) ∧ calls 0 <+: calls 1 ∧
      (calls 0).length = 1 ∧ (calls 1).length = 2 ∧
      1 ≤ 64 ∧ (∀ uid limit, (run 1).1 ≠ .error (.depthExceeded uid limit)) ∧ run 64 = run 1 := by
  intro run calls
  have hfails : (run 0).1 = .error (.depthExceeded "cond_3" 0) := rfl
  have hsucceeds : ∀ uid limit, (run 1).1 ≠ .error (.depthExceeded uid limit) :=
    fun _ _ herror => nomatch herror
  obtain ⟨hcut, -⟩ :=
    Executor.limited_executeFrom (by decide : 0 ≤ 1) Executor.silent Script.deepening ∅ ()
  obtain ⟨-, hsame⟩ :=
    Executor.limited_executeFrom (by decide : 1 ≤ 64) Executor.silent Script.deepening ∅ ()
  refine ⟨by decide, hfails, ?_, rfl, rfl, by decide, hsucceeds, hsame hsucceeds⟩
  rcases hcut with heq | ⟨-, -, hcalls⟩
  · exact nomatch hfails.symm.trans (congrArg Prod.fst heq)
  · exact hcalls

end Workflow
