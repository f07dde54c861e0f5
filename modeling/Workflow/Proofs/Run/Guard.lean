import Mathlib.Data.Finset.Basic
import Workflow.Proofs.Run.Nesting
import Workflow.Proofs.Run.Permission

/-!
The guard against re-entry as a set of identifiers, which a run keeps up by adding what it enters
and taking away what it leaves. Main statement: at every moment of every run the set has exactly the
identifiers of the open frames, each open once, every call that succeeds gives it back as it was,
and a run that asks the set before it enters something is the run that asks the path.
-/

set_option autoImplicit false

namespace Workflow

variable {σ α β : Type}

/-- The set after an event. Whatever the frames are, they count by their identifiers alone. -/
def Event.activeAfter (active : Finset Uid) : Event → Finset Uid
  | .enter frame => insert frame.uid active
  | .leave frame => active.erase frame.uid
  | _ => active

def activeUids (journal : List Event) : Finset Uid := journal.foldl Event.activeAfter ∅

@[simp] theorem activeUids_append (journal : List Event) (event : Event) :
    activeUids (journal ++ [event]) = event.activeAfter (activeUids journal) := by
  simp [activeUids, List.foldl_append]

def Event.isQuiet : Event → Bool
  | .enter _ | .leave _ => false
  | _ => true

theorem Event.openAfter_of_isQuiet {event : Event} (h : event.isQuiet) (frames : List Frame) :
    event.openAfter frames = frames := by
  cases event <;> first | rfl | cases h

theorem Event.activeAfter_of_isQuiet {event : Event} (h : event.isQuiet) (active : Finset Uid) :
    event.activeAfter active = active := by
  cases event <;> first | rfl | cases h

/-- No identifier is open twice, and the set has those that are open. -/
structure Guarded (journal : List Event) : Prop where
  nodup : (Frame.path (openFrames journal)).Nodup
  active_eq : activeUids journal = (Frame.path (openFrames journal)).toFinset

namespace Guarded

variable {journal : List Event} {event : Event} {frame : Frame} {frames : List Frame}

theorem nil : Guarded [] := ⟨.nil, rfl⟩

theorem enter (h : Guarded journal) (hnew : frame.uid ∉ Frame.path (openFrames journal)) :
    Guarded (journal ++ [.enter frame]) where
  nodup := by
    rw [openFrames_append]
    exact List.nodup_cons.mpr ⟨hnew, h.nodup⟩
  active_eq := by
    rw [openFrames_append, activeUids_append, Event.activeAfter, h.active_eq]
    exact (List.toFinset_cons ..).symm

theorem leave (h : Guarded journal) (hopen : openFrames journal = frame :: frames) :
    Guarded (journal ++ [.leave frame]) := by
  obtain ⟨hnodup, hactive⟩ := h
  rw [hopen, Frame.path, List.map_cons, List.nodup_cons] at hnodup
  have hleft : openFrames (journal ++ [.leave frame]) = frames := by
    rw [openFrames_append, hopen]
    exact List.erase_cons_head ..
  constructor
  · rw [hleft]
    exact hnodup.2
  · rw [hleft, activeUids_append, Event.activeAfter, hactive, hopen, Frame.path, List.map_cons,
      List.toFinset_cons]
    exact Finset.erase_insert (by simpa using hnodup.1)

theorem append (h : Guarded journal) (hquiet : event.isQuiet) : Guarded (journal ++ [event]) where
  nodup := by
    rw [openFrames_append, Event.openAfter_of_isQuiet hquiet]
    exact h.nodup
  active_eq := by
    rw [openFrames_append, activeUids_append, Event.openAfter_of_isQuiet hquiet,
      Event.activeAfter_of_isQuiet hquiet]
    exact h.active_eq

end Guarded

structure RunState.Tracks (frames : List Frame) (state : RunState σ) : Prop where
  open_eq : openFrames state.journal = frames
  guarded : ∀ before, before <+: state.journal → Guarded before

namespace RunState.Tracks

variable {frames : List Frame} {frame : Frame} {state after : RunState σ} {event : Event}

theorem active_eq (h : state.Tracks frames) :
    activeUids state.journal = (Frame.path frames).toFinset := by
  rw [(h.guarded _ List.prefix_rfl).active_eq, h.open_eq]

theorem mem_active_iff (h : state.Tracks frames) {uid : Uid} :
    uid ∈ activeUids state.journal ↔ uid ∈ Frame.path frames := by
  rw [h.active_eq, List.mem_toFinset]

theorem append {inner : List Frame} (h : state.Tracks frames)
    (hjournal : after.journal = state.journal ++ [event])
    (hopen : event.openAfter frames = inner) (hguarded : Guarded (state.journal ++ [event])) :
    after.Tracks inner where
  open_eq := by rw [hjournal, openFrames_append, h.open_eq, hopen]
  guarded before hbefore := by
    rw [hjournal] at hbefore
    rcases List.prefix_concat_iff.mp hbefore with rfl | hbefore
    · exact hguarded
    · exact h.guarded before hbefore

theorem entered (h : state.Tracks frames) (hnew : frame.uid ∉ Frame.path frames) :
    (state.noted (.enter frame)).Tracks (frame :: frames) :=
  h.append rfl rfl ((h.guarded _ List.prefix_rfl).enter (h.open_eq ▸ hnew))

theorem left (h : state.Tracks (frame :: frames)) :
    (state.noted (.leave frame)).Tracks frames :=
  h.append rfl (List.erase_cons_head ..) ((h.guarded _ List.prefix_rfl).leave h.open_eq)

theorem quiet (h : state.Tracks frames) (events : List Event)
    (hquiet : events.all Event.isQuiet) (hjournal : after.journal = state.journal ++ events) :
    after.Tracks frames := by
  induction events using List.reverseRecOn generalizing after with
  | nil =>
    rw [List.append_nil] at hjournal
    exact ⟨hjournal ▸ h.open_eq, hjournal ▸ h.guarded⟩
  | append_singleton events event ih =>
    rw [List.all_append, Bool.and_eq_true, List.all_cons, List.all_nil, Bool.and_true] at hquiet
    have hbefore : Tracks frames { state with journal := state.journal ++ events } :=
      ih hquiet.1 rfl
    have hguarded := (hbefore.guarded _ List.prefix_rfl).append hquiet.2
    exact hbefore.append (by rw [hjournal, List.append_assoc])
      (Event.openAfter_of_isQuiet hquiet.2 frames) hguarded

end RunState.Tracks

namespace Run

/-- Enters a frame unless the set has its identifier. The path is handed on and never asked. -/
def enteringActive (frame : Frame) (path : List Uid) (body : List Uid → Run σ α) : Run σ α := do
  if frame.uid ∈ activeUids (← get).journal then throw (.cyclicWork frame.uid)
  else do
    note (.enter frame)
    let a ← body (frame.uid :: path)
    note (.leave frame)
    return a

theorem outcome_enteringActive_mem {frame : Frame} {path : List Uid} {state : RunState σ}
    (h : frame.uid ∈ activeUids state.journal) (body : List Uid → Run σ α) :
    outcome (enteringActive frame path body) state =
      (.error (.cyclicWork frame.uid), state) := by
  rw [enteringActive, outcome_bind_ok (outcome_get state), if_pos h, outcome_throw]

theorem outcome_enteringActive {frame : Frame} {path : List Uid} {state : RunState σ}
    (h : frame.uid ∉ activeUids state.journal) (body : List Uid → Run σ α) :
    outcome (enteringActive frame path body) state =
      match outcome (body (frame.uid :: path)) (state.noted (.enter frame)) with
      | (.ok a, after) => (.ok a, after.noted (.leave frame))
      | (.error error, after) => (.error error, after) := by
  rw [enteringActive, outcome_bind_ok (outcome_get state), if_neg h,
    outcome_bind_ok (outcome_note _ _), outcome_bind]
  rcases outcome (body (frame.uid :: path)) (state.noted (.enter frame)) with ⟨_ | a, after⟩ <;> rfl

/-- Where the journal tracks the frames, both actions do the same, and if they succeed it tracks
these frames again. -/
def Keeps (frames : List Frame) (first second : Run σ α) : Prop :=
  ∀ state, state.Tracks frames → first.outcome state = second.outcome state ∧
    ∀ a after, first.outcome state = (.ok a, after) → after.Tracks frames

namespace Keeps

variable {frames : List Frame} {first second : Run σ α} {f g : α → Run σ β}

theorem pure (a : α) : Keeps frames (Pure.pure a : Run σ α) (Pure.pure a) := by
  intro state h
  refine ⟨rfl, fun b after heq => ?_⟩
  cases heq
  exact h

theorem throw (error : RunError) :
    Keeps frames (MonadExcept.throw error : Run σ α) (MonadExcept.throw error) :=
  fun _ _ => ⟨rfl, fun _ _ heq => nomatch heq⟩

theorem bind (h : Keeps frames first second) (hf : ∀ a, Keeps frames (f a) (g a)) :
    Keeps frames (first >>= f) (second >>= g) := by
  intro state hstate
  obtain ⟨heq, hnext⟩ := h state hstate
  rw [outcome_bind, outcome_bind, ← heq]
  rcases hend : first.outcome state with ⟨error | a, after⟩
  · exact ⟨rfl, fun _ _ herror => nomatch herror⟩
  · exact hf a after (hnext a after hend)

theorem parametric : Parametric fun (α : Type) => Keeps (α := α) (σ := σ) frames where
  pure := pure
  throw := throw
  bind := bind

theorem of_quiet {action : Run σ α}
    (h : ∀ state a after, action.outcome state = (.ok a, after) →
      ∃ events, events.all Event.isQuiet ∧ after.journal = state.journal ++ events) :
    Keeps frames action action := by
  intro state hstate
  refine ⟨rfl, fun a after heq => ?_⟩
  obtain ⟨events, hquiet, hjournal⟩ := h state a after heq
  exact hstate.quiet events hquiet hjournal

theorem note {event : Event} (h : event.isQuiet) :
    Keeps frames (Run.note event : Run σ Unit) (Run.note event) := by
  refine of_quiet fun state _ after heq => ⟨[event], by simpa using h, ?_⟩
  cases heq
  rfl

theorem store (uid : Uid) (value : Json) :
    Keeps frames (Run.store uid value : Run σ Unit) (Run.store uid value) := by
  refine of_quiet fun state _ after heq => ⟨[.store uid value], rfl, ?_⟩
  cases heq
  rfl

theorem record (record : TraceRecord) :
    Keeps frames (Run.record record : Run σ Unit) (Run.record record) := by
  refine of_quiet fun state _ after heq => ⟨[], rfl, ?_⟩
  cases heq
  exact (List.append_nil _).symm

theorem entering {frame : Frame} {f g : List Uid → Run σ α}
    (h : frame.uid ∉ Frame.path frames →
      Keeps (frame :: frames) (f (Frame.path (frame :: frames)))
        (g (Frame.path (frame :: frames)))) :
    Keeps frames (Run.entering frame (Frame.path frames) f)
      (enteringActive frame (Frame.path frames) g) := by
  intro state hstate
  have hmem : frame.uid ∈ activeUids state.journal ↔ frame.uid ∈ Frame.path frames :=
    hstate.mem_active_iff
  by_cases hin : frame.uid ∈ Frame.path frames
  · rw [outcome_entering_mem hin, outcome_enteringActive_mem (hmem.mpr hin)]
    exact ⟨rfl, fun _ _ heq => nomatch heq⟩
  · rw [outcome_entering hin, outcome_enteringActive (mt hmem.mp hin)]
    obtain ⟨heq, hnext⟩ := h hin _ (hstate.entered hin)
    rw [show frame.uid :: Frame.path frames = Frame.path (frame :: frames) from rfl, ← heq]
    rcases hend : (f (Frame.path (frame :: frames))).outcome (state.noted (.enter frame)) with
      ⟨error | a, after⟩
    · exact ⟨rfl, fun _ _ herror => nomatch herror⟩
    · refine ⟨rfl, fun b final heq => ?_⟩
      cases heq
      exact (hnext a after hend).left

end Keeps

end Run

namespace Engine

open Run (Keeps)

def runOperationActive (engine : Engine σ) (below : Below σ) (uid : Uid) (depth : Nat)
    (path : List Uid) : Run σ Unit := do
  let operation ← engine.findOperation uid depth
  let matched ← Run.enteringActive (.operation uid) path fun path =>
    engine.runConditions below uid operation depth path operation.order []
  Run.store uid (operationResult matched)

def evaluateActive (engine : Engine σ) (below : Below σ) (operation : Conditional)
    (condition : Uid) (depth : Nat) (path : List Uid) : Run σ Trace := do
  let row ← engine.findCondition operation condition depth
  let trace ← Run.enteringActive (.condition condition) path fun path =>
    engine.evaluateRow below operation row depth path
  Run.store condition (conditionResult trace.holds)
  return trace

def callsActive (engine : Engine σ) : Nat → Below σ
  | 0 => engine.calls 0
  | room + 1 => {
      operation := engine.runOperationActive (engine.callsActive room)
      condition := engine.evaluateActive (engine.callsActive room) }

variable {engine : Engine σ} {frames : List Frame}

theorem keeps_leaf (operand : Operand) :
    Keeps frames (leaf operand : Run σ Trace) (leaf operand) := by
  refine .of_quiet fun state trace after heq => ?_
  rw [outcome_leaf] at heq
  cases operand with
  | static value =>
    cases heq
    exact ⟨[], rfl, (List.append_nil _).symm⟩
  | internal owner key =>
    dsimp only at heq
    split at heq
    case h_1 => cases heq
    case h_2 record _ =>
      split at heq
      case h_1 => cases heq
      case h_2 =>
        cases heq
        exact ⟨[.read owner record], rfl, rfl⟩

theorem keeps_runStep (work : Uid) (step : Step) :
    Keeps frames (engine.runStep work step) (engine.runStep work step) := by
  refine .of_quiet fun state _ after heq => ?_
  rw [outcome_runStep] at heq
  split at heq
  case h_1 => cases heq
  case h_2 slot runner _ =>
    split at heq
    case h_1 output runners _ =>
      cases heq
      exact ⟨[.call slot { step with id := work } (.ok output), .store work output], rfl,
        List.append_assoc ..⟩
    case h_2 => cases heq

theorem keeps_checkDepth (uid : Uid) (depth : Nat) :
    Keeps frames (engine.checkDepth uid depth) (engine.checkDepth uid depth) := by
  unfold checkDepth
  split
  · exact .throw _
  · exact .pure _

theorem keeps_findOperation (uid : Uid) (depth : Nat) :
    Keeps frames (engine.findOperation uid depth) (engine.findOperation uid depth) := by
  refine .bind (.note rfl) fun _ =>
    .bind (keeps_checkDepth uid depth) fun _ => ?_
  split
  · exact .pure _
  · exact .throw _
  · exact .throw _

theorem keeps_findCondition (operation : Conditional) (condition : Uid) (depth : Nat) :
    Keeps frames (engine.findCondition operation condition depth)
      (engine.findCondition operation condition depth) := by
  refine .bind (.note rfl) fun _ =>
    .bind (keeps_checkDepth condition depth) fun _ => ?_
  split
  · exact .pure _
  · exact .throw _

structure KeepsBelow (frames : List Frame) (lower upper : Below σ) : Prop where
  operation (uid : Uid) (depth : Nat) :
    Keeps frames (lower.operation uid depth (Frame.path frames))
      (upper.operation uid depth (Frame.path frames))
  condition (operation : Conditional) (condition : Uid) (depth : Nat) :
    Keeps frames (lower.condition operation condition depth (Frame.path frames))
      (upper.condition operation condition depth (Frame.path frames))

namespace KeepsBelow

variable {lower upper : Below σ}

theorem runWork (h : KeepsBelow frames lower upper) (work referencedBy : Uid) (depth : Nat) :
    Keeps frames (engine.runWork lower work referencedBy depth (Frame.path frames))
      (engine.runWork upper work referencedBy depth (Frame.path frames)) := by
  unfold Engine.runWork
  split
  · split
    · exact h.operation work depth
    · exact .throw _
  · split
    · exact keeps_runStep work _
    · exact .throw _

theorem runAction (h : KeepsBelow frames lower upper) (row : ConditionRow) (condition : Uid)
    (depth : Nat) :
    Keeps frames (engine.runAction lower row condition depth (Frame.path frames))
      (engine.runAction upper row condition depth (Frame.path frames)) :=
  Keeps.parametric.runAction _ _ condition fun work _ => h.runWork work condition depth

theorem operand (h : KeepsBelow frames lower upper) (operation : Conditional) (operand : Operand)
    (depth : Nat) :
    Keeps frames (engine.operand lower operation operand depth (Frame.path frames))
      (engine.operand upper operation operand depth (Frame.path frames)) :=
  Keeps.parametric.operand _ _ rfl (keeps_leaf operand) fun owner row _ _ _ =>
    ⟨h.condition operation owner (depth + 1), h.runAction row owner (depth + 1)⟩

theorem evaluateRow (h : KeepsBelow frames lower upper) (operation : Conditional)
    (row : ConditionRow) (depth : Nat) :
    Keeps frames (engine.evaluateRow lower operation row depth (Frame.path frames))
      (engine.evaluateRow upper operation row depth (Frame.path frames)) :=
  Keeps.parametric.evaluateRow _ _ operation fun operand _ => h.operand operation operand depth

theorem runConditions (h : KeepsBelow frames lower upper) (uid : Uid) (operation : Conditional)
    (depth : Nat) (conditions matched : List Uid) :
    Keeps frames
      (engine.runConditions lower uid operation depth (Frame.path frames) conditions matched)
      (engine.runConditions upper uid operation depth (Frame.path frames) conditions matched) :=
  Keeps.parametric.runConditions _ _ rfl rfl uid Keeps.record (fun condition row _ =>
    ⟨h.condition operation condition depth, h.runAction row condition (depth + 1)⟩)
    conditions matched

theorem runOperation (h : ∀ frame, KeepsBelow (frame :: frames) lower upper) (uid : Uid)
    (depth : Nat) :
    Keeps frames (engine.runOperation lower uid depth (Frame.path frames))
      (engine.runOperationActive upper uid depth (Frame.path frames)) := by
  refine .bind (keeps_findOperation uid depth) fun operation => .bind (.entering fun _ => ?_)
    fun matched => .store uid _
  exact (h _).runConditions uid operation depth operation.order []

theorem evaluate (h : ∀ frame, KeepsBelow (frame :: frames) lower upper) (operation : Conditional)
    (condition : Uid) (depth : Nat) :
    Keeps frames (engine.evaluate lower operation condition depth (Frame.path frames))
      (engine.evaluateActive upper operation condition depth (Frame.path frames)) := by
  refine .bind (keeps_findCondition operation condition depth) fun row =>
    .bind (.entering fun _ => ?_) fun trace => .bind (.store condition _) fun _ => .pure trace
  exact (h _).evaluateRow operation row depth

end KeepsBelow

theorem keepsBelow_calls (engine : Engine σ) (room : Nat) (frames : List Frame) :
    KeepsBelow frames (engine.calls room) (engine.callsActive room) := by
  induction room generalizing frames with
  | zero =>
    constructor
    · exact fun uid depth => .bind (keeps_findOperation uid depth) fun _ => .throw _
    · exact fun operation condition depth =>
        .bind (keeps_findCondition operation condition depth) fun _ => .throw _
  | succ room ih =>
    constructor
    · exact KeepsBelow.runOperation fun frame => ih (frame :: frames)
    · exact KeepsBelow.evaluate fun frame => ih (frame :: frames)

theorem keeps_runListedBy (engine : Engine σ) (room : Nat) (uids : List Uid) :
    Keeps [] (engine.runListedBy (engine.calls room) uids)
      (engine.runListedBy (engine.callsActive room) uids) := by
  induction uids with
  | nil => exact .pure _
  | cons uid uids ih =>
    refine .bind ?_ fun _ => ih
    split
    · exact (engine.keepsBelow_calls room []).operation uid 0
    · exact .throw _

theorem Move.tracks {moment next : Moment σ} (hmove : engine.Move moment next)
    (h : moment.state.Tracks moment.frames) : next.state.Tracks next.frames := by
  cases hmove with
  | enterOperation _ _ hnew | enterCondition _ hnew => exact h.entered hnew
  | leave => exact h.left
  | record => exact h.quiet [] rfl (List.append_nil _).symm
  | visitOperation | visitCondition | read | storeCondition | storeOperation =>
    exact h.quiet [_] rfl rfl
  | call => exact h.quiet [_, _] rfl (List.append_assoc ..)

theorem Fails.tracks {moment : Moment σ} {error : RunError} {after : RunState σ}
    (hfail : engine.Fails moment error after) (h : moment.state.Tracks moment.frames) :
    after.Tracks moment.frames := by
  cases hfail with
  | call => exact h.quiet [_] rfl rfl
  | notListed | unsupported | missingCondition | missingWork | cyclic | tooDeep | noResult
  | noField | noConditionField | noRunner => exact h

theorem Reaches.tracks {first last : Moment σ} (hreach : engine.Reaches first last)
    (h : first.state.Tracks first.frames) : last.state.Tracks last.frames := by
  induction hreach with
  | refl => exact h
  | tail _ hmove ih => exact hmove.tracks ih

end Engine

/-- If the action succeeds, the set has what it had before, and the same frames are open. -/
def Run.Restores (action : Run σ α) (state : RunState σ) : Prop :=
  ∀ a after, action.outcome state = (.ok a, after) →
    activeUids after.journal = activeUids state.journal ∧
      openFrames after.journal = openFrames state.journal

theorem Run.Keeps.restores {frames : List Frame} {first second : Run σ α}
    (h : Keeps frames first second) {state : RunState σ} (hstate : state.Tracks frames) :
    first.Restores state := by
  intro a after heq
  have hafter := (h state hstate).2 a after heq
  exact ⟨hafter.active_eq.trans hstate.active_eq.symm, hafter.open_eq.trans hstate.open_eq.symm⟩

/-- At every moment that a run can come to the set has the identifiers of the open frames, each open
once, and a call from there that succeeds, be it of an operation, a condition, an operand or work,
leaves the set and the frames as they were. So it was at every moment of the run that was made, one
that failed included, and nothing is open after one that succeeded. And the run that asks the set is
the run that asks the path. -/
theorem Executor.active_eq_open (executor : Executor σ) (script : Script) (results : Table Json)
    (runners : σ) :
    let engine : Engine σ := ⟨executor, script⟩
    let start : RunState σ := { results, runners }
    let run := executor.executeFrom script results runners
    (∀ moment, engine.Reaches ⟨[], start⟩ moment →
      let below := engine.calls
      let path := Frame.path moment.frames
      openFrames moment.state.journal = moment.frames ∧ path.Nodup ∧
        activeUids moment.state.journal = path.toFinset ∧
        ∀ room depth,
          (∀ uid, ((below room).operation uid depth path).Restores moment.state) ∧
          (∀ operation condition,
            ((below room).condition operation condition depth path).Restores moment.state) ∧
          (∀ operation operand,
            (engine.operand (below room) operation operand depth path).Restores moment.state) ∧
          ∀ work referencedBy,
            (engine.runWork (below room) work referencedBy depth path).Restores moment.state) ∧
      (∀ before, before <+: run.2.journal →
        (Frame.path (openFrames before)).Nodup ∧
          activeUids before = (Frame.path (openFrames before)).toFinset) ∧
      (run.1 = .ok () → openFrames run.2.journal = []) ∧
      (engine.runListedBy (engine.callsActive script.enterable.length) script.order.uids).outcome
        start = run := by
  intro engine start run
  have hstart : start.Tracks [] := by
    refine ⟨rfl, fun before hbefore => ?_⟩
    rw [List.prefix_nil.mp hbefore]
    exact .nil
  have hkeeps := engine.keeps_runListedBy script.enterable.length script.order.uids start hstart
  have hrun : run = (engine.runListedBy (engine.calls script.enterable.length)
      script.order.uids).outcome start := by
    rw [← engine.runAll_eq_runListedBy]
    exact executor.executeFrom_eq_outcome script results runners
  refine ⟨fun moment hreach => ?_, fun before hbefore => ?_, fun hok => ?_, ?_⟩
  · have htracks := hreach.tracks hstart
    refine ⟨htracks.open_eq, htracks.open_eq ▸ (htracks.guarded _ List.prefix_rfl).nodup,
      htracks.active_eq, fun room depth => ?_⟩
    have hbelow := engine.keepsBelow_calls room moment.frames
    exact ⟨fun uid => (hbelow.operation uid depth).restores htracks,
      fun operation condition => (hbelow.condition operation condition depth).restores htracks,
      fun operation operand => (hbelow.operand operation operand depth).restores htracks,
      fun work referencedBy => (hbelow.runWork work referencedBy depth).restores htracks⟩
  · obtain ⟨frames, htracks⟩ := executor.exists_frames script results runners
      (P := fun moment => moment.state.Tracks moment.frames) hstart
      (fun _ _ hmove h => hmove.tracks h) fun _ _ _ hfail h => hfail.tracks h
    obtain ⟨hnodup, hactive⟩ := htracks.guarded before hbefore
    exact ⟨hnodup, hactive⟩
  · rw [hrun] at hok ⊢
    exact (hkeeps.2 () _ (Prod.ext hok rfl)).open_eq
  · rw [hrun]
    exact hkeeps.1.symm

/-- The evaluation of the nested condition, called for its reader, puts the identifier into the set
and takes it away again. When the step of the condition then fails, its reader and their operation
are still open. -/
theorem Script.nestedStep_active :
    let engine : Engine Unit := ⟨Executor.failing, Script.nestedStep⟩
    let run := Executor.failing.executeFrom Script.nestedStep ∅ ()
    let frames : List Frame := [.condition "cond_1", .operation "op_1"]
    let start : RunState Unit := { results := ∅, runners := () }
    let entries : List Event := [.enter (.operation "op_1"), .enter (.condition "cond_1")]
    let reading : RunState Unit := { start with journal := entries }
    let visit : List Event := [
      .visit (.condition "cond_2") 1, .enter (.condition "cond_2"),
      .leave (.condition "cond_2"),
      .store "cond_2" (.object [("output", .object [("result", .bool true)])])]
    engine.Reaches ⟨[], start⟩ ⟨frames, reading⟩ ∧
      activeUids reading.journal = {"cond_1", "op_1"} ∧
      (∃ operation trace after,
        Script.nestedStep.operations.get? "op_1" = some (.conditional operation) ∧
          ((engine.calls 1).condition operation "cond_2" 1 (Frame.path frames)).outcome reading =
            (.ok trace, after) ∧
          after.journal = entries ++ visit ∧
          activeUids after.journal = activeUids reading.journal) ∧
      run.1 = .error (.step "step_1" "refused") ∧ openFrames run.2.journal = frames ∧
      activeUids run.2.journal = (Frame.path frames).toFinset ∧
      (engine.runListedBy (engine.callsActive Script.nestedStep.enterable.length)
        Script.nestedStep.order.uids).outcome start = run := by
  intro engine run frames start entries reading visit
  obtain ⟨hmoments, hrun, -, hsame⟩ := Executor.failing.active_eq_open Script.nestedStep ∅ ()
  obtain ⟨operation, row, hrow, horder⟩ :
      ∃ operation row, Script.nestedStep.HasRow "op_1" operation "cond_1" row ∧
        operation.order = ["cond_1"] := ⟨_, _, ⟨rfl, rfl⟩, rfl⟩
  have hreach : engine.Reaches ⟨[], start⟩ ⟨frames, reading⟩ := by
    refine .tail (.single (.enterOperation (.listed ?_) hrow.get_operation ?_))
      (.enterCondition (.condition hrow ?_) ?_)
    · exact List.mem_singleton_self _
    · exact List.not_mem_nil
    · exact horder ▸ List.mem_singleton_self _
    · decide
  obtain ⟨-, -, hactive, hcalls⟩ := hmoments _ hreach
  let evaluated : RunState Unit :=
    { start with
      results := start.results.insert "cond_2"
        (.object [("output", .object [("result", .bool true)])])
      journal := entries ++ visit }
  obtain ⟨found, trace, hfound, houtcome⟩ : ∃ operation trace,
      Script.nestedStep.operations.get? "op_1" = some (.conditional operation) ∧
        ((engine.calls 1).condition operation "cond_2" 1 (Frame.path frames)).outcome reading =
          (.ok trace, evaluated) :=
    ⟨_, .precomputed (.leaf "true" (.bool true)) true, rfl, rfl⟩
  exact ⟨hreach, hactive, ⟨found, trace, evaluated, hfound, houtcome, rfl,
    ((hcalls 1 1).2.1 found "cond_2" trace evaluated houtcome).1⟩, rfl, rfl,
    (hrun _ List.prefix_rfl).2, hsame⟩

end Workflow
