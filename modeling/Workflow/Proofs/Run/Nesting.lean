import Workflow.Proofs.Run.Course
import Workflow.Proofs.Run.Parametric

/-!
How deep runs nest. No frame is open twice, and frames are opened for what the tables have; so the
script itself bounds how deep calls stand in each other, whatever limit the executor has. With more
room than that the recursion never comes to its bottom, and ends by itself.
-/

set_option autoImplicit false

namespace Workflow

theorem Script.Stacks.length_le {script : Script} {frames : List Frame}
    (h : script.Stacks frames) : frames.length ≤ script.keyCount := by
  simpa [Frame.path, keyCount] using h.subperm.length_le

def RunState.Shallow {σ : Type} (bound : Nat) (state : RunState σ) : Prop :=
  ∀ frame depth, .visit frame depth ∈ state.journal → depth ≤ bound

namespace Engine

variable {σ : Type} {engine : Engine σ} {moment next : Moment σ} {bound : Nat}

theorem Move.stacks (hmove : engine.Move moment next) (h : engine.script.Stacks moment.frames) :
    engine.script.Stacks next.frames := by
  cases hmove with
  | enterOperation _ hfound hnew => exact h.cons hnew (Script.mem_enterable_of_operation hfound)
  | enterCondition hcalls hnew =>
    refine h.cons hnew ?_
    cases hcalls with
    | condition hrow _ => exact hrow.mem_enterable
    | operand _ _ _ hnested => exact hnested.mem_enterable
  | leave =>
    obtain ⟨hnodup, henterable⟩ := h
    exact ⟨(List.nodup_cons.mp hnodup).2, fun uid huid =>
      henterable uid (List.mem_cons_of_mem _ huid)⟩
  | visitOperation | visitCondition | read | call | storeCondition | storeOperation | record =>
    exact h

theorem Move.shallow (hmove : engine.Move moment next) (hlen : moment.frames.length ≤ bound)
    (h : moment.state.Shallow bound) : next.state.Shallow bound := by
  intro frame depth hmem
  cases hmove with
  | visitOperation _ _ hdepth =>
    rcases List.mem_append.mp hmem with hmem | hmem
    · exact h frame depth hmem
    · cases List.mem_singleton.mp hmem
      exact Nat.le_trans hdepth hlen
  | visitCondition _ hdepth =>
    rcases List.mem_append.mp hmem with hmem | hmem
    · exact h frame depth hmem
    · cases List.mem_singleton.mp hmem
      exact Nat.le_trans (Nat.le_of_lt hdepth) hlen
  | enterOperation | enterCondition | leave | read | call | storeCondition | storeOperation
  | record =>
    refine h frame depth ?_
    simpa [RunState.noted, RunState.stored, RunState.called, RunState.recorded] using hmem

theorem Fails.shallow {error : RunError} {after : RunState σ}
    (hfail : engine.Fails moment error after) (h : moment.state.Shallow bound) :
    after.Shallow bound := by
  cases hfail with
  | call =>
    intro frame depth hmem
    exact h frame depth (by simpa [RunState.noted, RunState.called] using hmem)
  | notListed | unsupported | missingCondition | missingWork | cyclic | tooDeep | noResult
  | noField | noConditionField | noRunner => exact h

theorem Fails.lt_length {uid : Uid} {limit : Nat} {after : RunState σ}
    (hfail : engine.Fails moment (.depthExceeded uid limit) after) :
    engine.executor.maxDepth < moment.frames.length := by
  cases hfail with
  | tooDeep _ hlt hdepth => exact Nat.lt_of_lt_of_le hlt hdepth

/-- The recursion of the engine `room` deep, with `bottom` in place of what it would call there. -/
def unfold (engine : Engine σ) (bottom : Below σ) : Nat → Below σ
  | 0 => bottom
  | room + 1 => {
      operation := engine.runOperation (engine.unfold bottom room)
      condition := engine.evaluate (engine.unfold bottom room) }

def runListedBy (engine : Engine σ) (below : Below σ) : List Uid → Run σ Unit
  | [] => pure ()
  | uid :: uids => do
    (if engine.script.operations.contains uid then below.operation uid 0 []
      else throw (.missingOperation uid) : Run σ Unit)
    engine.runListedBy below uids

theorem runAll_eq_runListedBy (engine : Engine σ) (uids : List Uid) :
    engine.runAll uids =
      engine.runListedBy (engine.calls engine.script.enterable.length) uids := by
  induction uids with
  | nil => rfl
  | cons uid uids ih => rw [runAll, runListedBy, ih, runListed]

structure Agree (engine : Engine σ) (path : List Uid) (left right : Below σ) : Prop where
  operation (uid : Uid) (depth : Nat) :
    left.operation uid depth path = right.operation uid depth path
  condition {uid : Uid} {operation : Conditional} (condition : Uid) (depth : Nat) :
    engine.script.operations.get? uid = some (.conditional operation) →
    left.condition operation condition depth path = right.condition operation condition depth path

namespace Agree

variable {path : List Uid} {left right : Below σ} {uid : Uid} {operation : Conditional}

theorem runWork (h : engine.Agree path left right) (work referencedBy : Uid) (depth : Nat) :
    engine.runWork left work referencedBy depth path =
      engine.runWork right work referencedBy depth path := by
  simp only [Engine.runWork, h.operation]

theorem runAction (h : engine.Agree path left right) (row : ConditionRow) (condition : Uid)
    (depth : Nat) :
    engine.runAction left row condition depth path =
      engine.runAction right row condition depth path := by
  simp only [Engine.runAction, h.runWork]

theorem operand (h : engine.Agree path left right)
    (hoperation : engine.script.operations.get? uid = some (.conditional operation))
    (operand : Operand) (depth : Nat) :
    engine.operand left operation operand depth path =
      engine.operand right operation operand depth path := by
  simp only [Engine.operand, h.condition _ _ hoperation, h.runAction]

theorem evaluateRow (h : engine.Agree path left right)
    (hoperation : engine.script.operations.get? uid = some (.conditional operation))
    (row : ConditionRow) (depth : Nat) :
    engine.evaluateRow left operation row depth path =
      engine.evaluateRow right operation row depth path :=
  Run.parametric_eq.evaluateRow engine right operation fun operand _ =>
    h.operand hoperation operand depth

theorem runConditions (h : engine.Agree path left right)
    (hoperation : engine.script.operations.get? uid = some (.conditional operation))
    (depth : Nat) (conditions matched : List Uid) :
    engine.runConditions left uid operation depth path conditions matched =
      engine.runConditions right uid operation depth path conditions matched :=
  Run.parametric_eq.runConditions engine right rfl rfl uid (fun _ => rfl)
    (fun condition row _ =>
      ⟨h.condition condition depth hoperation, h.runAction row condition (depth + 1)⟩)
    conditions matched

end Agree

variable {frames : List Frame} {left right : Below σ}

theorem runOperation_congr (uid : Uid) (depth : Nat)
    (h : ∀ frame : Frame, frame.uid ∉ Frame.path frames → frame.uid ∈ engine.script.enterable →
      engine.Agree (Frame.path (frame :: frames)) left right) :
    engine.runOperation left uid depth (Frame.path frames) =
      engine.runOperation right uid depth (Frame.path frames) := by
  refine Run.bind_congr fun state operation after hfound => ?_
  have hoperation := get?_of_findOperation hfound
  have hmem : uid ∈ engine.script.enterable := Script.mem_enterable_of_operation hoperation
  rw [Run.entering_congr
    (g := fun path => engine.runConditions right uid operation depth path operation.order [])
    fun hnew => (h (.operation uid) hnew hmem).runConditions hoperation depth operation.order []]

theorem evaluate_congr {uid : Uid} {operation : Conditional} (condition : Uid) (depth : Nat)
    (hoperation : engine.script.operations.get? uid = some (.conditional operation))
    (h : ∀ frame : Frame, frame.uid ∉ Frame.path frames → frame.uid ∈ engine.script.enterable →
      engine.Agree (Frame.path (frame :: frames)) left right) :
    engine.evaluate left operation condition depth (Frame.path frames) =
      engine.evaluate right operation condition depth (Frame.path frames) := by
  refine Run.bind_congr fun state row after hfound => ?_
  have hrow : engine.script.HasRow uid operation condition row :=
    ⟨hoperation, get?_of_findCondition hfound⟩
  rw [Run.entering_congr fun hnew =>
    (h (.condition condition) hnew hrow.mem_enterable).evaluateRow hoperation row depth]

theorem runOperation_of_fits (hfits : engine.script.Fits 0 frames) (below : Below σ) (uid : Uid)
    (depth : Nat) :
    (engine.calls 0).operation uid depth (Frame.path frames) =
      engine.runOperation below uid depth (Frame.path frames) := by
  refine Run.bind_congr fun state operation after hfound => ?_
  have hopen := hfits.mem_path (Script.mem_enterable_of_operation (get?_of_findOperation hfound))
  simp only [Run.entering, Frame.uid, hopen, if_true]
  rfl

theorem evaluate_of_fits (hfits : engine.script.Fits 0 frames) (below : Below σ) {uid : Uid}
    {operation : Conditional} (condition : Uid) (depth : Nat)
    (hoperation : engine.script.operations.get? uid = some (.conditional operation)) :
    (engine.calls 0).condition operation condition depth (Frame.path frames) =
      engine.evaluate below operation condition depth (Frame.path frames) := by
  refine Run.bind_congr fun state row after hfound => ?_
  have hrow : engine.script.HasRow uid operation condition row :=
    ⟨hoperation, get?_of_findCondition hfound⟩
  simp only [Run.entering, Frame.uid, hfits.mem_path hrow.mem_enterable, if_true]
  rfl

/-- With more room than there can be open frames, nothing comes down to the bottom. -/
theorem agree_unfold (engine : Engine σ) (bottom : Below σ) {room deeper : Nat}
    (hfits : engine.script.Fits room frames)
    (hdeeper : engine.script.keyCount < frames.length + deeper) :
    engine.Agree (Frame.path frames) (engine.calls room) (engine.unfold bottom deeper) := by
  induction room generalizing frames deeper with
  | zero =>
    have hlen := hfits.length_le
    obtain ⟨less, rfl⟩ : ∃ less, deeper = less + 1 := ⟨deeper - 1, by omega⟩
    constructor
    · exact fun uid depth => runOperation_of_fits hfits _ uid depth
    · exact fun condition depth hoperation => evaluate_of_fits hfits _ condition depth hoperation
  | succ room ih =>
    have hlen := hfits.length_le
    obtain ⟨less, rfl⟩ : ∃ less, deeper = less + 1 := ⟨deeper - 1, by omega⟩
    have hbelow : ∀ frame : Frame, frame.uid ∉ Frame.path frames →
        frame.uid ∈ engine.script.enterable →
        engine.Agree (Frame.path (frame :: frames)) (engine.calls room)
          (engine.unfold bottom less) := by
      intro frame hnew hmem
      refine ih (hfits.cons hnew hmem) ?_
      simp only [List.length_cons]
      omega
    constructor
    · exact fun uid depth => runOperation_congr uid depth hbelow
    · exact fun condition depth hoperation => evaluate_congr condition depth hoperation hbelow

theorem runListedBy_unfold (engine : Engine σ) (bottom : Below σ) {room : Nat}
    (hroom : engine.script.keyCount < room) (uids : List Uid) :
    engine.runListedBy (engine.unfold bottom room) uids = engine.runAll uids := by
  have hagree : engine.Agree [] (engine.calls engine.script.enterable.length)
      (engine.unfold bottom room) :=
    agree_unfold engine bottom engine.script.fits_nil (by simpa using hroom)
  rw [engine.runAll_eq_runListedBy]
  induction uids with
  | nil => rfl
  | cons uid uids ih => rw [runListedBy, runListedBy, ih, hagree.operation]

end Engine

/-- Whatever limit the executor has, no run asks for a frame at a greater depth than the script has
keys. An executor with no smaller limit never finds a run too deep. And the recursion ends by
itself: with room for more levels than there are keys, the run is the same whatever would be called
below. -/
theorem Executor.depth_le_keyCount {σ : Type} (executor : Executor σ) (script : Script)
    (results : Table Json) (runners : σ) :
    let run := executor.executeFrom script results runners
    let engine : Engine σ := ⟨executor, script⟩
    (∀ frame depth, .visit frame depth ∈ run.2.journal → depth ≤ script.keyCount) ∧
      (script.keyCount ≤ executor.maxDepth →
        ∀ uid limit, run.1 ≠ .error (.depthExceeded uid limit)) ∧
      ∀ room bottom, script.keyCount < room →
        (engine.runListedBy (engine.unfold bottom room) script.order.uids).outcome
          { results, runners } = run := by
  intro run engine
  have hstart : script.Stacks [] ∧ RunState.Shallow script.keyCount { results, runners } :=
    ⟨script.stacks_nil, fun _ _ hmem => nomatch hmem⟩
  have hmove : ∀ moment next, engine.Move moment next →
      script.Stacks moment.frames ∧ moment.state.Shallow script.keyCount →
      script.Stacks next.frames ∧ next.state.Shallow script.keyCount :=
    fun _ _ hmove h => ⟨hmove.stacks h.1, hmove.shallow h.1.length_le h.2⟩
  refine ⟨?_, fun hlimit uid limit herror => ?_, fun room bottom hroom => ?_⟩
  · have hkeeps := executor.executeFrom_keeps script results runners hstart hmove
    rcases hend : executor.executeFrom script results runners with ⟨cause | _, after⟩
    · rw [hend] at hkeeps
      obtain ⟨moment, ⟨-, hshallow⟩, hfail⟩ := hkeeps
      simp only [run, hend]
      exact hfail.shallow hshallow
    · rw [hend] at hkeeps
      simp only [run, hend]
      exact hkeeps.2
  · obtain ⟨moment, ⟨hstacks, -⟩, hfail⟩ :=
      executor.exists_fails script results runners hstart hmove herror
    have hdepth : script.keyCount < script.keyCount :=
      calc script.keyCount
        _ ≤ executor.maxDepth := hlimit
        _ < moment.frames.length := hfail.lt_length
        _ ≤ script.keyCount := hstacks.length_le
    exact Nat.lt_irrefl _ hdepth
  · rw [engine.runListedBy_unfold bottom hroom]
    rfl

/-- Two conditions that read each other. -/
def Script.mirror : Script where
  order := (OperationOrder.empty.insert "op_1").1
  operations := Table.ofList [("op_1", .conditional {
    conditions := Table.ofList [
      ("cond_1", { left := some (.internal "cond_2" Operand.conditionKey) }),
      ("cond_2", { left := some (.internal "cond_1" Operand.conditionKey) })]
    order := ["cond_1"] })]

/-- The limit is out of reach, and yet the second request for the first condition is the deepest. A
bottom that takes everything for done is not reached. -/
theorem Script.mirror_depth_le :
    let executor : Executor Unit := { maxDepth := UInt64.size - 1 }
    let run := executor.executeFrom Script.mirror ∅ ()
    let engine : Engine Unit := ⟨executor, Script.mirror⟩
    let done : Below Unit := ⟨fun _ _ _ => pure (), fun _ _ _ _ => pure .otherwise⟩
    Script.mirror.keyCount = 3 ∧ .visit (.condition "cond_1") 2 ∈ run.2.journal ∧
      2 ≤ Script.mirror.keyCount ∧ (∀ uid limit, run.1 ≠ .error (.depthExceeded uid limit)) ∧
      (engine.runListedBy (engine.unfold done 4) ["op_1"]).outcome { results := ∅, runners := () } =
        run := by
  intro executor run engine done
  have hcount : Script.mirror.keyCount = 3 := by decide
  have hvisit : .visit (.condition "cond_1") 2 ∈ run.2.journal := by
    have hjournal : run.2.journal = [
      .visit (.operation "op_1") 0, .enter (.operation "op_1"),
      .visit (.condition "cond_1") 0, .enter (.condition "cond_1"),
      .visit (.condition "cond_2") 1, .enter (.condition "cond_2"),
      .visit (.condition "cond_1") 2] := rfl
    simp [hjournal]
  obtain ⟨hdepth, hlimit, hbottom⟩ := executor.depth_le_keyCount Script.mirror ∅ ()
  exact ⟨hcount, hvisit, hdepth _ _ hvisit, hlimit (by rw [hcount]; decide),
    hbottom 4 done (by rw [hcount]; decide)⟩

end Workflow
