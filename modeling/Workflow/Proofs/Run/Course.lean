import Workflow.Proofs.Run.Moves

/-!
The course of a run: each function of the engine goes by moves. The room of nested calls is never
what ends a run, since without room every identifier that could be entered is on the path.
-/

set_option autoImplicit false

namespace Workflow

namespace Engine

variable {σ α β : Type} {engine : Engine σ} {frames : List Frame}

namespace Goes

variable {P P' : RunState σ → Prop} {Q Q' : α → RunState σ → Prop} {action : Run σ α}

theorem pure {a : α} (h : ∀ state, P state → Q a state) :
    engine.Goes frames P (Pure.pure a : Run σ α) Q :=
  fun state hP => .inl ⟨a, state, rfl, .refl, h state hP⟩

theorem bind {R : β → RunState σ → Prop} {f : α → Run σ β} (h : engine.Goes frames P action Q)
    (hf : ∀ a, engine.Goes frames (Q a) (f a) R) : engine.Goes frames P (action >>= f) R := by
  intro state hP
  rcases h state hP with ⟨a, middle, heq, hreach, hQ⟩ | ⟨error, moment, after, heq, hreach, hfail⟩
  · rw [Run.outcome_bind_ok heq]
    rcases hf a middle hQ with
      ⟨b, after, heq', hreach', hR⟩ | ⟨error, moment, after, heq', hreach', hfail⟩
    · exact .inl ⟨b, after, heq', hreach.trans hreach', hR⟩
    · exact .inr ⟨error, moment, after, heq', hreach.trans hreach', hfail⟩
  · rw [Run.outcome_bind_error heq]
    exact .inr ⟨error, moment, after, rfl, hreach, hfail⟩

theorem weaken (h : engine.Goes frames P action Q) (hP : ∀ state, P' state → P state)
    (hQ : ∀ a state, Q a state → Q' a state) : engine.Goes frames P' action Q' := by
  intro state hP'
  rcases h state (hP state hP') with ⟨a, after, heq, hreach, hq⟩ | hfail
  · exact .inl ⟨a, after, heq, hreach, hQ a after hq⟩
  · exact .inr hfail

theorem move {a : α} {next : RunState σ → RunState σ}
    (heq : ∀ state, action.outcome state = (.ok a, next state))
    (hmove : ∀ state, P state → engine.Move ⟨frames, state⟩ ⟨frames, next state⟩)
    (hQ : ∀ state, P state → Q a (next state)) : engine.Goes frames P action Q :=
  fun state hP => .inl ⟨a, next state, heq state, .single (hmove state hP), hQ state hP⟩

theorem assume {p : Prop} (h : p → engine.Goes frames (fun _ => True) action Q) :
    engine.Goes frames (fun _ => p) action Q :=
  fun state hp => h hp state trivial

theorem assume_left {p : Prop} (h : p → engine.Goes frames P action Q) :
    engine.Goes frames (fun state => p ∧ P state) action Q :=
  fun state hP => h hP.1 state hP.2

theorem fail {error : RunError}
    (h : ∀ state, P state → engine.Fails ⟨frames, state⟩ error state) :
    engine.Goes frames P (throw error : Run σ α) Q :=
  fun state hP => .inr ⟨error, ⟨frames, state⟩, state, rfl, .refl, h state hP⟩

theorem entering {frame : Frame} {body : List Uid → Run σ α} {A : α → Prop}
    (hcalls : engine.script.Calls frames frame)
    (henter : frame.uid ∉ Frame.path frames → ∀ state,
      engine.Move ⟨frames, state⟩ ⟨frame :: frames, state.noted (.enter frame)⟩)
    (hbody : frame.uid ∉ Frame.path frames →
      engine.Goes (frame :: frames) (fun _ => True) (body (Frame.path (frame :: frames)))
        fun a _ => A a) :
    engine.Goes frames P (Run.entering frame (Frame.path frames) body) fun a _ => A a := by
  intro state _
  by_cases hmem : frame.uid ∈ Frame.path frames
  · exact .inr ⟨_, ⟨frames, state⟩, state, Run.outcome_entering_mem hmem body state, .refl,
      .cyclic hcalls hmem⟩
  · rw [Run.outcome_entering hmem]
    have hin := henter hmem state
    rcases hbody hmem (state.noted (.enter frame)) trivial with
      ⟨a, after, heq, hreach, ha⟩ | ⟨error, moment, after, heq, hreach, hfail⟩
    · refine .inl ⟨a, after.noted (.leave frame), ?_, ?_, ha⟩
      · rw [show frame.uid :: Frame.path frames = Frame.path (frame :: frames) from rfl, heq]
      · exact (Relation.ReflTransGen.head hin hreach).tail .leave
    · refine .inr ⟨error, moment, after, ?_, Relation.ReflTransGen.head hin hreach, hfail⟩
      rw [show frame.uid :: Frame.path frames = Frame.path (frame :: frames) from rfl, heq]

end Goes

theorem goes_runStep {work : Uid} {step : Step}
    (hstep : engine.script.steps.get? work = some step) :
    engine.Goes frames (fun state => engine.script.Permits frames state.results work)
      (engine.runStep work step) fun _ _ => True := by
  intro state hpermits
  rw [outcome_runStep]
  cases hrunner : engine.executor.runnerFor? step.kind with
  | none => exact .inr ⟨_, ⟨frames, state⟩, state, rfl, .refl, .noRunner hpermits hstep hrunner⟩
  | some found =>
    obtain ⟨slot, runner⟩ := found
    rcases hanswer : runner { step with id := work } state.runners with ⟨cause | output, runners⟩
    · simp only [hanswer]
      exact .inr ⟨_, ⟨frames, state⟩, _, rfl, .refl, .call hpermits hstep hrunner hanswer⟩
    · simp only [hanswer]
      exact .inl ⟨(), _, rfl, .single (.call hpermits hstep hrunner hanswer), trivial⟩

structure Sound (engine : Engine σ) (room : Nat) (below : Below σ) : Prop where
  operation {frames : List Frame} {uid : Uid} {depth : Nat} :
    engine.script.Fits room frames → engine.script.Calls frames (.operation uid) →
    engine.script.operations.contains uid → depth ≤ frames.length →
    engine.Goes frames (fun _ => True) (below.operation uid depth (Frame.path frames))
      fun _ _ => True
  condition {frames : List Frame} {uid condition : Uid} {operation : Conditional}
    {row : ConditionRow} {depth : Nat} :
    engine.script.Fits room frames → .operation uid ∈ frames →
    engine.script.HasRow uid operation condition row →
    engine.script.Calls frames (.condition condition) → depth < frames.length →
    engine.Goes frames (fun _ => True)
      (below.condition operation condition depth (Frame.path frames))
      fun trace state => trace.Explained ∧
        state.results.get? condition = some (conditionResult trace.holds)

variable {room depth : Nat} {below : Below σ} {uid condition : Uid} {operation : Conditional}
  {row : ConditionRow}

theorem goes_runWork {work : Uid} (hbelow : engine.Sound room below)
    (hfits : engine.script.Fits room frames) (hopen : .operation uid ∈ frames)
    (hrow : engine.script.HasRow uid operation condition row) (hwork : row.work = some work)
    (hcalls : engine.script.operations.contains work → WorkKind.of? work = some .operation →
      engine.script.Calls frames (.operation work))
    (hdepth : depth ≤ frames.length) :
    engine.Goes frames (fun state => state.results.get? condition = some (conditionResult true))
      (engine.runWork below work condition depth (Frame.path frames)) fun _ _ => True := by
  unfold runWork
  split
  case isTrue hkind =>
    split
    case isTrue hcontains =>
      exact (hbelow.operation hfits (hcalls hcontains hkind) hcontains hdepth).weaken
        (fun _ _ => trivial) fun _ _ h => h
    case isFalse hmissing =>
      exact .fail fun _ _ => .missingWork hrow hwork (by simpa [hkind] using hmissing)
  case isFalse hkind =>
    split
    case h_1 step hstep =>
      exact (goes_runStep hstep).weaken
        (fun _ hholds => ⟨uid, operation, condition, row, hopen, hrow, hwork, hholds⟩)
        fun _ _ h => h
    case h_2 hmissing =>
      exact .fail fun _ _ => .missingWork hrow hwork (by simpa [hkind] using hmissing)

theorem goes_runAction (hbelow : engine.Sound room below)
    (hfits : engine.script.Fits room frames) (hopen : .operation uid ∈ frames)
    (hrow : engine.script.HasRow uid operation condition row)
    (hcalls : ∀ work, row.work = some work → engine.script.operations.contains work →
      WorkKind.of? work = some .operation → engine.script.Calls frames (.operation work))
    (hdepth : depth ≤ frames.length) :
    engine.Goes frames (fun state => state.results.get? condition = some (conditionResult true))
      (engine.runAction below row condition depth (Frame.path frames))
      fun work _ => work = row.work := by
  unfold runAction
  split
  case h_1 hnone => exact .pure fun _ _ => hnone.symm
  case h_2 work hwork =>
    refine .bind (goes_runWork hbelow hfits hopen hrow hwork (hcalls work hwork) hdepth) fun _ => ?_
    exact .pure fun _ _ => hwork.symm

theorem goes_leaf {operand : Operand} (hreads : engine.script.Reads frames operand) :
    engine.Goes frames (fun _ => True) (leaf operand : Run σ Trace)
      fun trace _ => trace.Explained := by
  intro state _
  rw [outcome_leaf]
  cases operand with
  | static value => exact .inl ⟨_, state, rfl, .refl, .leaf _ _⟩
  | internal owner key =>
    cases hrecord : state.results.get? owner with
    | none =>
      simp only [hrecord]
      exact .inr ⟨_, ⟨frames, state⟩, state, rfl, .refl, .noResult hreads hrecord⟩
    | some record =>
      have hmove : engine.Move ⟨frames, state⟩ ⟨frames, state.noted (.read owner record)⟩ :=
        .read hreads hrecord
      simp only [hrecord]
      cases hfield : record.lookup? key with
      | none => exact .inr ⟨_, _, _, rfl, .single hmove, .noField hreads hrecord hfield⟩
      | some value => exact .inl ⟨_, _, rfl, .single hmove, .leaf _ _⟩

theorem goes_operand {operand : Operand} (hbelow : engine.Sound room below)
    (hfits : engine.script.Fits room (.condition condition :: frames))
    (hopen : .operation uid ∈ frames)
    (hrow : engine.script.HasRow uid operation condition row) (hmem : operand ∈ row.operands)
    (hdepth : depth < frames.length) :
    engine.Goes (.condition condition :: frames) (fun _ => True)
      (engine.operand below operation operand depth (Frame.path (.condition condition :: frames)))
      fun trace _ => trace.Explained := by
  have hopen' : .operation uid ∈ Frame.condition condition :: frames := List.mem_cons_of_mem _ hopen
  have hreads : engine.script.Reads (.condition condition :: frames) operand :=
    ⟨uid, operation, condition, row, hopen', List.mem_cons_self, hrow, hmem⟩
  cases operand with
  | static value => exact goes_leaf hreads
  | internal owner key =>
    simp only [Engine.operand]
    split
    case isFalse => exact goes_leaf hreads
    case isTrue hkind =>
      split
      case h_1 => exact goes_leaf hreads
      case h_2 nested hnested =>
        split
        case isFalse hkey => exact .fail fun _ _ => .noConditionField hreads hkind hkey
        case isTrue hkey =>
          subst hkey
          have hrow' : engine.script.HasRow uid operation owner nested :=
            ⟨hrow.get_operation, hnested⟩
          have hcalls := Script.Calls.operand hopen hrow hmem hrow' hkind
          have hlt : depth + 1 < (Frame.condition condition :: frames).length := by
            simpa using hdepth
          -- The outcome is stored by then, which is what permits the work of the nested condition.
          refine .bind (hbelow.condition hfits hopen' hrow' hcalls hlt)
            fun trace => .assume_left fun hexplained => ?_
          by_cases hholds : trace.holds
          · simp only [hholds, if_true]
            refine .bind (goes_runAction hbelow hfits hopen' hrow' ?_ (Nat.le_of_lt hlt))
              fun _ => ?_
            · exact fun work hwork => .operandWork hopen hrow hmem hrow' hwork
            · exact .pure fun _ _ => hexplained
          · simp only [hholds]
            exact .pure fun _ _ => hexplained

theorem goes_operandOrNull {operand : Option Operand} (hbelow : engine.Sound room below)
    (hfits : engine.script.Fits room (.condition condition :: frames))
    (hopen : .operation uid ∈ frames)
    (hrow : engine.script.HasRow uid operation condition row)
    (hmem : ∀ value, operand = some value → value ∈ row.operands) (hdepth : depth < frames.length) :
    engine.Goes (.condition condition :: frames) (fun _ => True)
      (engine.operandOrNull below operation operand depth
        (Frame.path (.condition condition :: frames)))
      fun trace _ => trace.Explained := by
  cases operand with
  | none => exact .pure fun _ _ => .leaf _ _
  | some value => exact goes_operand hbelow hfits hopen hrow (hmem value rfl) hdepth

theorem goes_evaluateRow (hbelow : engine.Sound room below)
    (hfits : engine.script.Fits room (.condition condition :: frames))
    (hopen : .operation uid ∈ frames)
    (hrow : engine.script.HasRow uid operation condition row) (hdepth : depth < frames.length) :
    engine.Goes (.condition condition :: frames) (fun _ => True)
      (engine.evaluateRow below operation row depth (Frame.path (.condition condition :: frames)))
      fun trace _ => trace.Explained := by
  unfold evaluateRow
  split
  case h_1 =>
    split
    case h_1 => exact .pure fun _ _ => .otherwise
    case h_2 value hvalue =>
      have hmem : value ∈ row.operands := ConditionRow.mem_operands_of_left hvalue
      refine .bind (goes_operand hbelow hfits hopen hrow hmem hdepth)
        fun trace => .assume fun hvalue => ?_
      exact .pure fun _ _ => .precomputed hvalue
  case h_2 operator _ =>
    refine .bind (goes_operandOrNull hbelow hfits hopen hrow
      (fun _ => ConditionRow.mem_operands_of_left) hdepth) fun left => .assume fun hleft => ?_
    split
    case isTrue hunary =>
      obtain rfl := Operator.eq_not_of_isUnary hunary
      exact .pure fun _ _ => .unary hleft
    case isFalse hbinary =>
      split
      case isTrue hdecided => exact .pure fun _ _ => hleft.decided hdecided
      case isFalse =>
        have hne : operator ≠ .not := by
          rintro rfl
          exact hbinary rfl
        refine .bind (goes_operandOrNull hbelow hfits hopen hrow
          (fun _ => ConditionRow.mem_operands_of_right) hdepth)
          fun right => .assume fun hright => ?_
        exact .pure fun _ _ => .binary hne hleft hright

theorem goes_checkDepth {frame : Frame} (hcalls : engine.script.Calls frames frame)
    (hdepth : depth ≤ frames.length) :
    engine.Goes frames (fun _ => True) (engine.checkDepth frame.uid depth) fun _ _ => True := by
  unfold checkDepth
  split
  case isTrue hlt => exact .fail fun _ _ => .tooDeep hcalls hlt hdepth
  case isFalse => exact .pure fun _ _ => trivial

theorem goes_findCondition (hrow : engine.script.HasRow uid operation condition row)
    (hcalls : engine.script.Calls frames (.condition condition)) (hdepth : depth < frames.length) :
    engine.Goes frames (fun _ => True) (engine.findCondition operation condition depth)
      fun found _ => found = row := by
  unfold findCondition
  refine .bind (Q := fun _ _ => True) (.move (fun _ => Run.outcome_note _ _)
    (fun _ _ => .visitCondition hcalls hdepth) fun _ _ => trivial) fun _ => ?_
  refine .bind (goes_checkDepth hcalls (Nat.le_of_lt hdepth)) fun _ => ?_
  simp only [hrow.get_row]
  exact .pure fun _ _ => rfl

theorem goes_evaluate (hbelow : engine.Sound room below)
    (hfits : engine.script.Fits (room + 1) frames) (hopen : .operation uid ∈ frames)
    (hrow : engine.script.HasRow uid operation condition row)
    (hcalls : engine.script.Calls frames (.condition condition)) (hdepth : depth < frames.length) :
    engine.Goes frames (fun _ => True)
      (engine.evaluate below operation condition depth (Frame.path frames))
      fun trace state => trace.Explained ∧
        state.results.get? condition = some (conditionResult trace.holds) := by
  unfold evaluate
  refine .bind (goes_findCondition hrow hcalls hdepth) fun found => .assume fun hfound => ?_
  subst hfound
  refine .bind (Q := fun trace _ => trace.Explained) ?_ fun trace => .assume fun hexplained => ?_
  · refine .entering hcalls (fun hnew _ => .enterCondition hcalls hnew) fun hnew => ?_
    exact goes_evaluateRow hbelow (hfits.cons hnew hrow.mem_enterable) hopen hrow hdepth
  · refine .bind (.move (fun _ => Run.outcome_store _ _ _)
      (fun _ _ => .storeCondition hopen hrow hcalls)
      (Q := fun _ state => state.results.get? condition = some (conditionResult trace.holds))
      fun _ _ => ?_) fun _ => .pure fun _ h => ⟨hexplained, h⟩
    simp [RunState.stored]

theorem goes_runConditions (hbelow : engine.Sound room below)
    (hfits : engine.script.Fits room (.operation uid :: frames))
    (hoperation : engine.script.operations.get? uid = some (.conditional operation))
    (hdepth : depth ≤ frames.length) (conditions matched : List Uid)
    (hsub : ∀ condition ∈ conditions, condition ∈ operation.order) :
    engine.Goes (.operation uid :: frames) (fun _ => True)
      (engine.runConditions below uid operation depth (Frame.path (.operation uid :: frames))
        conditions matched) fun _ _ => True := by
  induction conditions generalizing matched with
  | nil => exact .pure fun _ _ => trivial
  | cons condition conditions ih =>
    have hlisted : condition ∈ operation.order := hsub condition List.mem_cons_self
    have hrest := fun matched => ih matched fun c hc => hsub c (List.mem_cons_of_mem _ hc)
    have hopen : .operation uid ∈ Frame.operation uid :: frames := List.mem_cons_self
    have hlt : depth < (Frame.operation uid :: frames).length := by
      simpa [Nat.lt_succ_iff] using hdepth
    unfold runConditions
    split
    case h_1 hmissing => exact .fail fun _ _ => .missingCondition hoperation hlisted hmissing
    case h_2 row hfound =>
      have hrow : engine.script.HasRow uid operation condition row := ⟨hoperation, hfound⟩
      have hcalls : engine.script.Calls (.operation uid :: frames) (.condition condition) :=
        .condition hrow hlisted
      refine .bind (hbelow.condition hfits hopen hrow hcalls hlt)
        fun trace => .assume_left fun hexplained => ?_
      have hrecord : ∀ work, (work = if trace.holds then row.work else none) →
          engine.Goes (.operation uid :: frames) (fun _ => True)
            (Run.record ⟨uid, condition, trace, trace.holds, work⟩) fun _ _ => True := by
        intro work hwork
        refine .move (fun _ => Run.outcome_record _ _) (fun _ _ => ?_) fun _ _ => trivial
        rw [hwork]
        exact .record hopen hrow hlisted hexplained
      by_cases hholds : trace.holds
      · simp only [hholds, if_true] at hrecord ⊢
        refine .bind (goes_runAction hbelow hfits hopen hrow (fun _ => .work hrow hlisted) hlt)
          fun work => .assume fun hwork => ?_
        refine .bind (hrecord work hwork) fun _ => ?_
        split
        · exact .pure fun _ _ => trivial
        · exact hrest _
      · simp only [hholds] at hrecord ⊢
        refine .bind ((hrecord none rfl).weaken (fun _ _ => trivial) fun _ _ h => h) fun _ => ?_
        exact hrest _

theorem goes_findOperation (hcalls : engine.script.Calls frames (.operation uid))
    (hcontains : engine.script.operations.contains uid) (hdepth : depth ≤ frames.length) :
    engine.Goes frames (fun _ => True) (engine.findOperation uid depth)
      fun operation _ => engine.script.operations.get? uid = some (.conditional operation) := by
  unfold findOperation
  refine .bind (Q := fun _ _ => True) (.move (fun _ => Run.outcome_note _ _)
    (fun _ _ => .visitOperation hcalls hcontains hdepth) fun _ _ => trivial) fun _ => ?_
  refine .bind (goes_checkDepth hcalls hdepth) fun _ => ?_
  split
  case h_1 operation hfound => exact .pure fun _ _ => hfound
  case h_2 operation hfound => exact .fail fun _ _ => .unsupported hcalls hfound
  case h_3 hmissing => simp [Table.contains, hmissing] at hcontains

theorem goes_runOperation (hbelow : engine.Sound room below)
    (hfits : engine.script.Fits (room + 1) frames)
    (hcalls : engine.script.Calls frames (.operation uid))
    (hcontains : engine.script.operations.contains uid) (hdepth : depth ≤ frames.length) :
    engine.Goes frames (fun _ => True) (engine.runOperation below uid depth (Frame.path frames))
      fun _ _ => True := by
  unfold runOperation
  refine .bind (goes_findOperation hcalls hcontains hdepth)
    fun operation => .assume fun hfound => ?_
  refine .bind (Q := fun _ _ => True) ?_ fun matched => ?_
  · refine .entering hcalls (fun hnew _ => .enterOperation hcalls hfound hnew) fun hnew => ?_
    have hfits' : engine.script.Fits room (.operation uid :: frames) :=
      hfits.cons hnew (Script.mem_enterable_of_operation hfound)
    exact goes_runConditions hbelow hfits' hfound hdepth operation.order [] fun _ h => h
  · exact .move (fun _ => Run.outcome_store _ _ _) (fun _ _ => .storeOperation hfound hcalls)
      fun _ _ => trivial

theorem sound_calls (engine : Engine σ) (room : Nat) : engine.Sound room (engine.calls room) := by
  induction room with
  | zero =>
    -- All that could be entered is open, so a call is refused as a cycle, room or not.
    constructor
    · intro frames uid depth hfits hcalls hcontains hdepth
      refine .bind (goes_findOperation hcalls hcontains hdepth)
        fun operation => .assume fun hfound => ?_
      have hmem := hfits.mem_path (Script.mem_enterable_of_operation hfound)
      exact .fail fun _ _ => Fails.cyclic hcalls hmem
    · intro frames uid condition operation row depth hfits hopen hrow hcalls hdepth
      refine .bind (goes_findCondition hrow hcalls hdepth) fun _ => .assume fun _ => ?_
      have hmem := hfits.mem_path hrow.mem_enterable
      exact .fail fun _ _ => Fails.cyclic hcalls hmem
  | succ room ih =>
    constructor
    · exact fun hfits hcalls hcontains hdepth => goes_runOperation ih hfits hcalls hcontains hdepth
    · exact fun hfits hopen hrow hcalls hdepth => goes_evaluate ih hfits hopen hrow hcalls hdepth

theorem goes_runListed (hlisted : uid ∈ engine.script.order.uids) :
    engine.Goes [] (fun _ => True) (engine.runListed uid) fun _ _ => True := by
  unfold runListed
  split
  case isTrue hcontains =>
    exact (engine.sound_calls _).operation engine.script.fits_nil (.listed hlisted) hcontains
      (Nat.zero_le _)
  case isFalse hmissing => exact .fail fun _ _ => .notListed hlisted hmissing

theorem goes_runAll (uids : List Uid) (hsub : ∀ uid ∈ uids, uid ∈ engine.script.order.uids) :
    engine.Goes [] (fun _ => True) (engine.runAll uids) fun _ _ => True := by
  induction uids with
  | nil => exact .pure fun _ _ => trivial
  | cons uid uids ih =>
    refine .bind (goes_runListed (hsub uid List.mem_cons_self)) fun _ => ?_
    exact ih fun u hu => hsub u (List.mem_cons_of_mem _ hu)

end Engine

/-- A run of a script goes by moves from its first state, to its end with no frame open or to a
failure. -/
theorem Executor.executeFrom_reaches {σ : Type} (executor : Executor σ) (script : Script)
    (results : Table Json) (runners : σ) :
    let engine : Engine σ := ⟨executor, script⟩
    let start : Moment σ := ⟨[], { results, runners }⟩
    match executor.executeFrom script results runners with
    | (.ok (), after) => engine.Reaches start ⟨[], after⟩
    | (.error error, after) =>
      ∃ moment, engine.Reaches start moment ∧ engine.Fails moment error after := by
  intro engine start
  rw [executor.executeFrom_eq_outcome]
  rcases engine.goes_runAll script.order.uids (fun _ h => h) start.state trivial with
    ⟨a, after, heq, hreach, -⟩ | ⟨error, moment, after, heq, hreach, hfail⟩
  · rw [heq]
    exact hreach
  · rw [heq]
    exact ⟨moment, hreach, hfail⟩

/-- What is so at the start of a run, and stays so by every move, is so at the end of the run or at
the moment at which it fails. -/
theorem Executor.executeFrom_keeps {σ : Type} (executor : Executor σ) (script : Script)
    (results : Table Json) (runners : σ) {P : Moment σ → Prop}
    (hstart : P ⟨[], { results, runners }⟩)
    (hmove : ∀ moment next, Engine.Move ⟨executor, script⟩ moment next → P moment → P next) :
    match executor.executeFrom script results runners with
    | (.ok (), after) => P ⟨[], after⟩
    | (.error error, after) =>
      ∃ moment, P moment ∧ Engine.Fails ⟨executor, script⟩ moment error after := by
  have hkeeps : ∀ moment, Engine.Reaches ⟨executor, script⟩ ⟨[], { results, runners }⟩ moment →
      P moment := by
    intro moment hreach
    induction hreach with
    | refl => exact hstart
    | tail _ hlast ih => exact hmove _ _ hlast ih
  have hreach := executor.executeFrom_reaches script results runners
  rcases hend : executor.executeFrom script results runners with ⟨error | _, after⟩
  · rw [hend] at hreach
    obtain ⟨moment, hreach, hfail⟩ := hreach
    exact ⟨moment, hkeeps moment hreach, hfail⟩
  · rw [hend] at hreach
    exact hkeeps _ hreach

theorem Executor.exists_frames {σ : Type} (executor : Executor σ) (script : Script)
    (results : Table Json) (runners : σ) {P : Moment σ → Prop}
    (hstart : P ⟨[], { results, runners }⟩)
    (hmove : ∀ moment next, Engine.Move ⟨executor, script⟩ moment next → P moment → P next)
    (hfail : ∀ moment error after, Engine.Fails ⟨executor, script⟩ moment error after →
      P moment → P ⟨moment.frames, after⟩) :
    ∃ frames, P ⟨frames, (executor.executeFrom script results runners).2⟩ := by
  have hkeeps := executor.executeFrom_keeps script results runners hstart hmove
  rcases hend : executor.executeFrom script results runners with ⟨error | _, after⟩
  · rw [hend] at hkeeps
    obtain ⟨moment, hmoment, hfails⟩ := hkeeps
    exact ⟨moment.frames, hfail moment error after hfails hmoment⟩
  · rw [hend] at hkeeps
    exact ⟨[], hkeeps⟩

theorem Executor.exists_fails {σ : Type} (executor : Executor σ) (script : Script)
    (results : Table Json) (runners : σ) {P : Moment σ → Prop}
    (hstart : P ⟨[], { results, runners }⟩)
    (hmove : ∀ moment next, Engine.Move ⟨executor, script⟩ moment next → P moment → P next)
    {error : RunError} (herror : (executor.executeFrom script results runners).1 = .error error) :
    ∃ moment, P moment ∧ Engine.Fails ⟨executor, script⟩ moment error
      (executor.executeFrom script results runners).2 := by
  have hkeeps := executor.executeFrom_keeps script results runners hstart hmove
  rcases hend : executor.executeFrom script results runners with ⟨cause | _, after⟩
  · rw [hend] at hkeeps herror
    cases herror
    exact hkeeps
  · rw [hend] at herror
    cases herror

end Workflow
