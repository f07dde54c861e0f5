import Workflow.Proofs.Run.Detours
import Workflow.Proofs.Run.Relisting
import Workflow.Proofs.Validation.WellFormed

/-!
Dependencies in a run. Main statement: when a step is called or an operation is entered, its
dependencies have results, except those that some course does not bring before it; and each such
course is taken by some run.
-/

set_option autoImplicit false

namespace Workflow

/-- The step is one of the script, under the key by which it is asked for. -/
def Script.Asks (script : Script) (step : Step) : Prop :=
  ∃ found, script.steps.get? step.id = some found ∧ step = { found with id := step.id }

structure Watch (σ : Type) where
  engine : Engine σ
  dependency : Uid
  given : Table Json

namespace Watch

variable {σ α β : Type}

abbrev Passes (watch : Watch σ) (stage : Stage) : Prop :=
  Detour.Passes ⟨watch.engine.script, watch.engine.executor.policy, watch.given,
    watch.dependency⟩ stage

def Done (watch : Watch σ) (journal : List Event) : Prop :=
  (replayed watch.given journal).contains watch.dependency

def May (watch : Watch σ) (before : List Event) : Event → Prop
  | .call _ step _ => watch.engine.script.Asks step ∧
      ((∃ frames, watch.Passes (.step step.id frames (replayed watch.given before))) ∨
        watch.Done before)
  | .enter (.operation uid) =>
    (∃ frames, watch.Passes (.operation uid frames (replayed watch.given before))) ∨
      watch.Done before
  | _ => True

structure Orderly (watch : Watch σ) (state : RunState σ) : Prop where
  results_eq : state.results = replayed watch.given state.journal
  lawful : Lawful watch.May state.journal

/-- As long as the dependency has no result, the action leads from what holds of the results before
it to what holds of these, its answer and the results after it. -/
def Keeps (watch : Watch σ) (before : Table Json → Prop) (action : Run σ α)
    (after : Table Json → α → Table Json → Prop) : Prop :=
  ∀ state, watch.Orderly state → before state.results ∨ watch.Done state.journal →
    watch.Orderly (action.outcome state).2 ∧
      (watch.Done state.journal → watch.Done (action.outcome state).2.journal) ∧
      ∀ a, (action.outcome state).1 = .ok a →
        after state.results a (action.outcome state).2.results ∨
          watch.Done (action.outcome state).2.journal

variable {watch : Watch σ} {state : RunState σ} {journal : List Event}

theorem Done.append (h : watch.Done journal) (event : Event) : watch.Done (journal ++ [event]) := by
  rw [Done, replayed_append]
  cases event with
  | store uid value =>
    have hcontains : (replayed watch.given journal).contains watch.dependency := h
    simp [Event.resultsAfter, Table.contains_insert, hcontains]
  | visit | enter | leave | read | call => exact h

theorem Done.extend {before : List Event} (h : watch.Done before) (after : List Event) :
    watch.Done (before ++ after) := by
  induction after generalizing before with
  | nil => simpa using h
  | cons event after ih => simpa using ih (h.append event)

theorem done_store (value : Json) :
    watch.Done (journal ++ [.store watch.dependency value]) := by
  simp [Done, Event.resultsAfter, Table.contains_insert]

theorem Orderly.grow {after : RunState σ} (h : watch.Orderly state) (event : Event)
    (hmay : watch.May state.journal event) (hjournal : after.journal = state.journal ++ [event])
    (hresults : after.results = event.resultsAfter state.results) : watch.Orderly after where
  results_eq := by rw [hresults, hjournal, replayed_append, ← h.results_eq]
  lawful := by
    rw [hjournal]
    exact h.lawful.append hmay

theorem Orderly.called (h : watch.Orderly state) {step : Step}
    (hasks : watch.engine.script.Asks step)
    (hstart : (∃ frames, watch.Passes (.step step.id frames state.results)) ∨
      watch.Done state.journal)
    (slot : RunnerSlot) (answer : Except String Json) (runners : σ) :
    watch.Orderly (state.called slot step answer runners) := by
  rw [h.results_eq] at hstart
  exact h.grow (.call slot step answer) ⟨hasks, hstart⟩ rfl rfl

end Watch

namespace Watch.Keeps

variable {σ α β : Type} {watch : Watch σ} {before : Table Json → Prop} {action : Run σ α}
  {after : Table Json → α → Table Json → Prop} {f : α → Run σ β}
  {last : Table Json → β → Table Json → Prop}

theorem imp {before' : Table Json → Prop} {after' : Table Json → α → Table Json → Prop}
    (h : watch.Keeps before action after) (hbefore : ∀ r, before' r → before r)
    (hafter : ∀ r a s, before' r → after r a s → after' r a s) :
    watch.Keeps before' action after' := by
  intro state horderly hstart
  obtain ⟨hnext, hstays, hends⟩ := h state horderly (hstart.imp_left (hbefore _))
  refine ⟨hnext, hstays, fun a ha => ?_⟩
  rcases hstart with hstart | hdone
  · exact (hends a ha).imp_left (hafter _ a _ hstart)
  · exact .inr (hstays hdone)

theorem fix (h : ∀ r, watch.Keeps (fun s => s = r ∧ before s) action fun _ a s => after r a s) :
    watch.Keeps before action after := by
  intro state horderly hstart
  exact h state.results state horderly (hstart.imp_left fun hbefore => ⟨rfl, hbefore⟩)

theorem pure {a : α} (h : ∀ r, before r → after r a r) :
    watch.Keeps before (pure a : Run σ α) after := by
  intro state horderly hstart
  refine ⟨horderly, id, fun b hb => ?_⟩
  cases hb
  exact hstart.imp_left (h _)

theorem throw (error : RunError) : watch.Keeps before (throw error : Run σ α) after :=
  fun _ horderly _ => ⟨horderly, id, fun _ ha => nomatch ha⟩

theorem throw_bind (error : RunError) :
    watch.Keeps before ((MonadExcept.throw error : Run σ α) >>= f) last :=
  fun _ horderly _ => ⟨horderly, id, fun _ ha => nomatch ha⟩

theorem bind (h : watch.Keeps before action after)
    (hf : ∀ r a, watch.Keeps (fun s => before r ∧ after r a s) (f a) fun _ b t => last r b t) :
    watch.Keeps before (action >>= f) last := by
  intro state horderly hstart
  obtain ⟨hnext, hstays, hends⟩ := h state horderly hstart
  rw [Run.outcome_bind]
  rcases hfirst : action.outcome state with ⟨error | a, middle⟩
  · simp only [hfirst] at hnext hstays
    exact ⟨hnext, hstays, fun _ hb => nomatch hb⟩
  · simp only [hfirst] at hnext hstays hends
    have hmiddle : (before state.results ∧ after state.results a middle.results) ∨
        watch.Done middle.journal := by
      rcases hstart with hbefore | hdone
      · exact (hends a rfl).imp_left (⟨hbefore, ·⟩)
      · exact .inr (hstays hdone)
    obtain ⟨hlast, hstays', hends'⟩ := hf state.results a middle hnext hmiddle
    exact ⟨hlast, fun hdone => hstays' (hstays hdone), hends'⟩

theorem andThen (h : watch.Keeps before action fun r _ s => s = r)
    (hf : ∀ a, watch.Keeps before (f a) last) : watch.Keeps before (action >>= f) last := by
  refine h.bind fun r a => (hf a).imp ?_ ?_
  · rintro s ⟨hbefore, rfl⟩
    exact hbefore
  · rintro s b t ⟨-, rfl⟩ hlast
    exact hlast

theorem note {event : Event} (hresults : ∀ results, event.resultsAfter results = results)
    (hmay : ∀ journal, before (replayed watch.given journal) ∨ watch.Done journal →
      watch.May journal event) :
    watch.Keeps before (Run.note event : Run σ Unit) fun r _ s => s = r := by
  intro state horderly hstart
  rw [Run.outcome_note]
  rw [horderly.results_eq] at hstart
  exact ⟨horderly.grow event (hmay _ hstart) rfl (hresults _).symm, fun hdone => hdone.append event,
    fun _ _ => .inl rfl⟩

theorem store (uid : Uid) (value : Json) :
    watch.Keeps before (Run.store uid value : Run σ Unit) fun r _ s =>
      uid ≠ watch.dependency ∧ s = r.insert uid value := by
  intro state horderly hstart
  rw [Run.outcome_store]
  refine ⟨horderly.grow (.store uid value) trivial rfl rfl, fun hdone => hdone.append _,
    fun _ _ => ?_⟩
  by_cases heq : uid = watch.dependency
  · subst heq
    exact .inr (done_store value)
  · exact .inl ⟨heq, rfl⟩

theorem record (record : TraceRecord) :
    watch.Keeps before (Run.record record : Run σ Unit) fun r _ s => s = r :=
  fun _ horderly _ => ⟨⟨horderly.results_eq, horderly.lawful⟩, id, fun _ _ => .inl rfl⟩

theorem entering {frame : Frame} {path : List Uid} {body : List Uid → Run σ α}
    (hmay : frame.uid ∉ path → ∀ journal,
      before (replayed watch.given journal) ∨ watch.Done journal → watch.May journal (.enter frame))
    (h : frame.uid ∉ path → watch.Keeps before (body (frame.uid :: path)) after) :
    watch.Keeps before (Run.entering frame path body) after := by
  unfold Run.entering
  split
  case isTrue => exact throw _
  case isFalse hnew =>
    refine andThen (note (fun _ => rfl) (hmay hnew)) fun _ => (h hnew).bind fun r a => ?_
    exact andThen (note (fun _ => rfl) fun _ _ => trivial) fun _ => pure fun _ => And.right

theorem checkDepth (uid : Uid) (depth : Nat) :
    watch.Keeps before (watch.engine.checkDepth uid depth) fun r _ s => s = r := by
  unfold Engine.checkDepth
  split
  · exact throw _
  · exact pure fun _ _ => rfl

theorem leaf {uid : Uid} {operation : Conditional} {operand : Operand} {frames : List Frame}
    (hoperation : watch.engine.script.operations.get? uid = some (.conditional operation))
    (hleaf : ∀ owner key, operand = .internal owner key → ¬ operation.Evaluates owner) :
    watch.Keeps before (Engine.leaf operand : Run σ Trace) fun r trace s =>
      watch.Passes (.operand uid frames (some operand) r trace.value s) := by
  intro state horderly _
  rw [Engine.outcome_leaf]
  cases operand with
  | static value =>
    refine ⟨horderly, id, fun trace ha => ?_⟩
    cases ha
    exact .inl .static
  | internal owner key =>
    cases hrecord : state.results.get? owner with
    | none =>
      simp only [hrecord]
      exact ⟨horderly, id, fun _ ha => nomatch ha⟩
    | some found =>
      have hnoted : watch.Orderly (state.noted (.read owner found)) :=
        horderly.grow (.read owner found) trivial rfl rfl
      cases hfield : found.lookup? key with
      | none =>
        simp only [hrecord, hfield]
        exact ⟨hnoted, fun hdone => hdone.append _, fun _ ha => nomatch ha⟩
      | some value =>
        simp only [hrecord, hfield]
        refine ⟨hnoted, fun hdone => hdone.append _, fun trace ha => ?_⟩
        cases ha
        exact .inl (.read hoperation (hleaf owner key rfl) hrecord hfield)

theorem runStep {uid : Uid} {step : Step} (hstep : watch.engine.script.steps.get? uid = some step) :
    watch.Keeps (fun r => ∃ frames, watch.Passes (.step uid frames r))
      (watch.engine.runStep uid step) fun r _ s =>
        uid ≠ watch.dependency ∧ ∃ value, s = r.insert uid value := by
  intro state horderly hstart
  have hasks : watch.engine.script.Asks { step with id := uid } := ⟨step, hstep, rfl⟩
  rw [Engine.outcome_runStep]
  rcases hrunner : watch.engine.executor.runnerFor? step.kind with _ | ⟨slot, runner⟩
  · exact ⟨horderly, id, fun _ ha => nomatch ha⟩
  · rcases hanswer : runner { step with id := uid } state.runners with ⟨cause | output, runners⟩
    · simp only [hanswer]
      exact ⟨horderly.called hasks hstart slot (.error cause) runners,
        fun hdone => hdone.append _, fun _ ha => nomatch ha⟩
    · simp only [hanswer]
      have hcalled := horderly.called hasks hstart slot (.ok output) runners
      refine ⟨hcalled.grow (.store uid output) trivial rfl rfl,
        fun hdone => (hdone.append _).append _, fun a _ => ?_⟩
      by_cases heq : uid = watch.dependency
      · subst heq
        exact .inr (done_store output)
      · exact hstart.imp (fun _ => ⟨heq, output, rfl⟩) fun hdone => (hdone.append _).append _

end Watch.Keeps

namespace Watch

def Decides {σ : Type} (watch : Watch σ) (uid condition : Uid) (frames : List Frame)
    (r : Table Json) (trace : Trace) (s : Table Json) : Prop :=
  watch.Passes (.verdict uid condition frames r trace.holds s) ∧ trace.value = .bool trace.holds

structure KeepsBelow {σ : Type} (watch : Watch σ) (below : Below σ) : Prop where
  operation (uid : Uid) (depth : Nat) (frames : List Frame) :
    watch.Keeps (fun r => uid ∉ Frame.path frames → watch.Passes (.operation uid frames r))
      (below.operation uid depth (Frame.path frames)) fun r _ s =>
        watch.Passes (.done uid frames r s)
  condition {uid condition : Uid} {operation : Conditional} {row : ConditionRow}
    (hrow : watch.engine.script.HasRow uid operation condition row) (depth : Nat)
    (frames : List Frame) :
    watch.Keeps
      (fun r => condition ∉ Frame.path frames → watch.Passes (.condition uid condition frames r))
      (below.condition operation condition depth (Frame.path frames))
      (watch.Decides uid condition frames)

variable {σ : Type} {watch : Watch σ} {below : Below σ} {uid condition : Uid}
  {operation : Conditional} {row : ConditionRow} {frames : List Frame}

theorem keeps_runWork (hbelow : watch.KeepsBelow below)
    (hrow : watch.engine.script.HasRow uid operation condition row) {work : Uid}
    (hwork : row.work = some work) (referencedBy : Uid) (depth : Nat) (frames : List Frame) :
    watch.Keeps (fun s => ∃ r, watch.Passes (.verdict uid condition frames r true s))
      (watch.engine.runWork below work referencedBy depth (Frame.path frames)) fun s _ t =>
        watch.Passes (.acted uid condition frames s t) := by
  unfold Engine.runWork
  split
  case isTrue hkind =>
    split
    · refine (hbelow.operation work depth frames).imp ?_ fun _ _ _ _ => .ran hrow hwork hkind
      rintro s ⟨r, hverdict⟩ hnew
      exact .nested hverdict hrow hwork hkind hnew
    · exact .throw _
  case isFalse hkind =>
    split
    case h_1 step hstep =>
      refine (Keeps.runStep hstep).imp ?_ ?_
      · rintro s ⟨r, hverdict⟩
        exact ⟨frames, .step hverdict hrow hwork hkind⟩
      · rintro s _ _ ⟨r, hverdict⟩ ⟨hne, value, rfl⟩
        exact .answered value (.step hverdict hrow hwork hkind) hrow hwork
          (by simp [Table.contains, hstep]) hne
    case h_2 => exact .throw _

theorem keeps_runAction (hbelow : watch.KeepsBelow below)
    (hrow : watch.engine.script.HasRow uid operation condition row) (depth : Nat)
    (frames : List Frame) :
    watch.Keeps (fun s => ∃ r, watch.Passes (.verdict uid condition frames r true s))
      (watch.engine.runAction below row condition depth (Frame.path frames)) fun s _ t =>
        watch.Passes (.acted uid condition frames s t) := by
  unfold Engine.runAction
  split
  case h_1 hwork =>
    refine .pure ?_
    rintro s ⟨r, hverdict⟩
    exact .idle hverdict hrow hwork
  case h_2 work hwork =>
    exact (keeps_runWork hbelow hrow hwork condition depth frames).bind fun s _ =>
      .pure fun _ => And.right

/-- What is read for an operand, where reading it may start the condition that it names. -/
theorem keeps_operand (hbelow : watch.KeepsBelow below) {operand : Operand}
    {before : Table Json → Prop}
    (hoperation : watch.engine.script.operations.get? uid = some (.conditional operation))
    (hnested : ∀ owner, operand = .internal owner Operand.conditionKey →
      operation.Evaluates owner → owner ∉ Frame.path frames → ∀ r, before r →
      watch.Passes (.condition uid owner frames r))
    (depth : Nat) :
    watch.Keeps before (watch.engine.operand below operation operand depth (Frame.path frames))
      fun r trace s => watch.Passes (.operand uid frames (some operand) r trace.value s) := by
  cases operand with
  | static value => exact .leaf hoperation nofun
  | internal owner key =>
    simp only [Engine.operand]
    split
    case isFalse hkind =>
      refine .leaf hoperation fun _ _ heq hevaluates => hkind ?_
      cases heq
      exact hevaluates.1
    case isTrue hkind =>
      split
      case h_1 hnone =>
        refine .leaf hoperation fun _ _ heq hevaluates => ?_
        cases heq
        simp [Conditional.Evaluates, Table.contains, hnone] at hevaluates
      case h_2 nested hget =>
        split
        case isFalse => exact .throw _
        case isTrue hkey =>
          subst hkey
          have hevaluates : operation.Evaluates owner := ⟨hkind, by simp [Table.contains, hget]⟩
          have hrow : watch.engine.script.HasRow uid operation owner nested := ⟨hoperation, hget⟩
          refine ((hbelow.condition hrow (depth + 1) frames).imp
            (fun r hbefore hnew => hnested owner rfl hevaluates hnew r hbefore)
            fun _ _ _ _ => id).bind fun r trace => ?_
          split
          case isTrue hholds =>
            have haction := keeps_runAction hbelow hrow (depth + 1) frames
            refine (haction.imp ?_ fun _ _ _ _ => id).bind fun s _ => .pure ?_
            · rintro s ⟨-, hverdict, -⟩
              exact ⟨r, hholds ▸ hverdict⟩
            · rintro t ⟨⟨-, hverdict, hvalue⟩, hacted⟩
              rw [hvalue, hholds]
              exact .holds hoperation hevaluates (hholds ▸ hverdict) hacted
          case isFalse hfails =>
            rw [Bool.not_eq_true] at hfails
            refine .pure ?_
            rintro s ⟨-, hverdict, hvalue⟩
            rw [hvalue, hfails]
            exact .fails hoperation hevaluates (hfails ▸ hverdict)

theorem keeps_operandOrNull (hbelow : watch.KeepsBelow below) {operand : Option Operand}
    {before : Table Json → Prop}
    (hoperation : watch.engine.script.operations.get? uid = some (.conditional operation))
    (hnested : ∀ owner, operand = some (.internal owner Operand.conditionKey) →
      operation.Evaluates owner → owner ∉ Frame.path frames → ∀ r, before r →
      watch.Passes (.condition uid owner frames r))
    (depth : Nat) :
    watch.Keeps before
      (watch.engine.operandOrNull below operation operand depth (Frame.path frames))
      fun r trace s => watch.Passes (.operand uid frames operand r trace.value s) := by
  cases operand with
  | none => exact .pure fun _ _ => .missing
  | some value =>
    exact keeps_operand hbelow hoperation (fun owner heq => hnested owner (congrArg some heq)) depth

/-- What a row comes to before its outcome is stored. -/
def Compares {σ : Type} (watch : Watch σ) (uid condition : Uid) (frames : List Frame)
    (r : Table Json) (trace : Trace) (s : Table Json) : Prop :=
  condition ≠ watch.dependency → watch.Decides uid condition frames r trace (s.insert condition
    (.object [("output", .object [("result", .bool trace.holds)])]))

theorem compares_of_value {trace : Trace} {holds : Bool} {r s : Table Json}
    (hvalue : trace.value = .bool holds)
    (h : condition ≠ watch.dependency →
      watch.Passes (.verdict uid condition frames r holds (s.insert condition
        (.object [("output", .object [("result", .bool holds)])])))) :
    watch.Compares uid condition frames r trace s := by
  intro hne
  rw [Decides, Trace.holds_of_value_eq hvalue]
  exact ⟨h hne, hvalue⟩

theorem keeps_evaluateRow (hbelow : watch.KeepsBelow below)
    (hrow : watch.engine.script.HasRow uid operation condition row) (depth : Nat) :
    watch.Keeps (fun r => watch.Passes (.condition uid condition frames r))
      (watch.engine.evaluateRow below operation row depth
        (Frame.path (.condition condition :: frames)))
      (watch.Compares uid condition frames) := by
  have hleft := keeps_operandOrNull hbelow hrow.get_operation
    (fun owner heq hevaluates hnew r
        (hpasses : watch.Passes (.condition uid condition frames r)) =>
      .left hpasses hrow heq hevaluates hnew) depth
  rw [Engine.evaluateRow_eq]
  refine hleft.bind fun r left => ?_
  split
  case isTrue hsettled =>
    refine .pure ?_
    rintro s ⟨hcondition, hoperand⟩
    exact compares_of_value (ConditionRow.value_settled hsettled)
      (.settled hcondition hrow hoperand hsettled)
  case isFalse hopen =>
    rw [Bool.not_eq_true] at hopen
    have hright := keeps_operandOrNull hbelow hrow.get_operation
      (fun owner heq hevaluates hnew s
          (hbefore : watch.Passes (.condition uid condition frames r) ∧ watch.Passes
            (.operand uid (.condition condition :: frames) row.left r left.value s)) =>
        .right hbefore.1 hrow hbefore.2 hopen heq hevaluates hnew) depth
    refine hright.bind fun s right => .pure ?_
    rintro t ⟨⟨hcondition, hoperand⟩, hother⟩
    exact compares_of_value (ConditionRow.value_compared hopen)
      (.compared hcondition hrow hoperand hopen hother)

theorem keeps_evaluate (hbelow : watch.KeepsBelow below)
    (hrow : watch.engine.script.HasRow uid operation condition row) (depth : Nat) :
    watch.Keeps
      (fun r => condition ∉ Frame.path frames → watch.Passes (.condition uid condition frames r))
      (watch.engine.evaluate below operation condition depth (Frame.path frames))
      (watch.Decides uid condition frames) := by
  simp only [Engine.evaluate, Engine.findCondition, hrow.get_row, bind_assoc, pure_bind]
  refine .andThen (.note (fun _ => rfl) fun _ _ => trivial) fun _ =>
    .andThen (.checkDepth condition depth) fun _ => ?_
  have hmay (journal : List Event) : watch.May journal (.enter (.condition condition)) := trivial
  have hbody (hnew : condition ∉ Frame.path frames) :
      watch.Keeps
        (fun r => condition ∉ Frame.path frames → watch.Passes (.condition uid condition frames r))
        (watch.engine.evaluateRow below operation row depth
          (Frame.path (.condition condition :: frames)))
        (watch.Compares uid condition frames) :=
    (keeps_evaluateRow hbelow hrow depth).imp (fun _ hpasses => hpasses hnew) fun _ _ _ _ => id
  refine (Keeps.entering (fun _ journal _ => hmay journal) hbody).bind fun r trace => ?_
  refine (Keeps.store condition (conditionResult trace.holds)).bind fun s _ => .pure ?_
  rintro t ⟨⟨-, hcompares⟩, hne, rfl⟩
  exact hcompares hne

theorem keeps_runConditions (hbelow : watch.KeepsBelow below)
    (hoperation : watch.engine.script.operations.get? uid = some (.conditional operation))
    (depth : Nat) (conditions matched : List Uid) (r : Table Json) :
    watch.Keeps (fun s => watch.Passes (.conditions uid frames r conditions matched s))
      (watch.engine.runConditions below uid operation depth
        (Frame.path (.operation uid :: frames)) conditions matched)
      fun _ matched t => watch.Passes (.conditions uid frames r [] matched t) := by
  induction conditions generalizing matched with
  | nil => exact .pure fun _ => id
  | cons condition conditions ih =>
    rw [Engine.runConditions]
    split
    case h_1 => exact .throw _
    case h_2 row hget =>
      have hrow : watch.engine.script.HasRow uid operation condition row := ⟨hoperation, hget⟩
      refine ((hbelow.condition hrow depth (.operation uid :: frames)).imp
        (fun _ hconditions hnew => .condition hconditions hnew)
        fun _ _ _ _ => id).bind fun s trace => ?_
      split
      case isTrue hholds =>
        have haction := keeps_runAction hbelow hrow (depth + 1) (.operation uid :: frames)
        refine (haction.imp ?_ fun _ _ _ _ => id).bind fun t _ => .andThen (.record _) fun _ => ?_
        · rintro t ⟨-, hverdict, -⟩
          exact ⟨s, hholds ▸ hverdict⟩
        · have hheld : ∀ u,
              (watch.Passes (.conditions uid frames r (condition :: conditions) matched s) ∧
                watch.Decides uid condition (.operation uid :: frames) s trace t) ∧
              watch.Passes (.acted uid condition (.operation uid :: frames) t u) →
              watch.Passes (.conditions uid frames r
                (if watch.engine.executor.policy = .firstMatch then [] else conditions)
                (matched ++ [condition]) u) := by
            rintro u ⟨⟨hconditions, hverdict, -⟩, hacted⟩
            exact .held hconditions (hholds ▸ hverdict) hacted
          split
          case isTrue hpolicy => exact .pure fun u h => by simpa [hpolicy] using hheld u h
          case isFalse hpolicy =>
            exact (ih _).imp (fun u h => by simpa [hpolicy] using hheld u h) fun _ _ _ _ => id
      case isFalse hfails =>
        rw [Bool.not_eq_true] at hfails
        refine .andThen (.record _) fun _ => (ih _).imp ?_ fun _ _ _ _ => id
        rintro t ⟨hconditions, hverdict, -⟩
        exact .failed hconditions (hfails ▸ hverdict)

theorem keeps_runOperation (hbelow : watch.KeepsBelow below) (uid : Uid) (depth : Nat) :
    watch.Keeps (fun r => uid ∉ Frame.path frames → watch.Passes (.operation uid frames r))
      (watch.engine.runOperation below uid depth (Frame.path frames)) fun r _ s =>
        watch.Passes (.done uid frames r s) := by
  simp only [Engine.runOperation, Engine.findOperation, bind_assoc]
  refine .andThen (.note (fun _ => rfl) fun _ _ => trivial) fun _ =>
    .andThen (.checkDepth uid depth) fun _ => ?_
  split
  case h_1 operation hoperation =>
    rw [pure_bind]
    have hbody (hnew : uid ∉ Frame.path frames) :
        watch.Keeps (fun r => uid ∉ Frame.path frames → watch.Passes (.operation uid frames r))
          (watch.engine.runConditions below uid operation depth
            (Frame.path (.operation uid :: frames)) operation.order [])
          fun r matched s => watch.Passes (.conditions uid frames r [] matched s) := by
      refine .fix fun r => (keeps_runConditions hbelow hoperation depth operation.order []
        r).imp ?_ fun _ _ _ _ => id
      rintro s ⟨rfl, hpasses⟩
      exact .conditions (hpasses hnew) hoperation
    have hmay (hnew : uid ∉ Frame.path frames) (journal : List Event)
        (h : (uid ∉ Frame.path frames →
          watch.Passes (.operation uid frames (replayed watch.given journal))) ∨
            watch.Done journal) : watch.May journal (.enter (.operation uid)) :=
      h.imp_left fun hpasses => ⟨frames, hpasses hnew⟩
    refine (Keeps.entering hmay hbody).bind fun r matched => ?_
    refine (Keeps.store uid (operationResult matched)).imp (fun _ => id) ?_
    rintro s - t ⟨-, hconditions⟩ ⟨hne, rfl⟩
    exact .ended hconditions hne
  case h_2 | h_3 => exact .throw_bind _

theorem keepsBelow_calls (room : Nat) : watch.KeepsBelow (watch.engine.calls room) := by
  induction room with
  | zero =>
    constructor
    · intro uid depth frames
      simp only [Engine.calls, Engine.findOperation, bind_assoc]
      refine .andThen (.note (fun _ => rfl) fun _ _ => trivial) fun _ =>
        .andThen (.checkDepth uid depth) fun _ => ?_
      split
      case h_1 => exact .throw _
      case h_2 | h_3 => exact .throw_bind _
    · intro uid condition operation row hrow depth frames
      simp only [Engine.calls, Engine.findCondition, hrow.get_row, bind_assoc, pure_bind]
      refine .andThen (.note (fun _ => rfl) fun _ _ => trivial) fun _ =>
        .andThen (.checkDepth condition depth) fun _ => .throw _
  | succ room ih =>
    exact ⟨fun uid depth _ => keeps_runOperation ih uid depth,
      fun hrow depth _ => keeps_evaluate ih hrow depth⟩

theorem keeps_runAll (uids : List Uid) :
    watch.Keeps (fun r => watch.Passes (.order uids r)) (watch.engine.runAll uids)
      fun _ _ _ => True := by
  induction uids with
  | nil => exact .pure fun _ _ => trivial
  | cons uid uids ih =>
    have hlisted : watch.Keeps (fun r => watch.Passes (.order (uid :: uids) r))
        (watch.engine.runListed uid) fun r _ s => watch.Passes (.done uid [] r s) := by
      unfold Engine.runListed
      split
      · exact ((keepsBelow_calls _).operation uid 0 []).imp (fun _ horder _ => .operation horder)
          fun _ _ _ _ => id
      · exact .throw _
    refine hlisted.bind fun r _ => ih.imp ?_ fun _ _ _ _ => id
    rintro s ⟨horder, hdone⟩
    exact .next horder hdone

end Watch

theorem Executor.orderly_executeFrom {σ : Type} (executor : Executor σ) (script : Script)
    (dependency : Uid) (given : Table Json) (runners : σ) :
    Watch.Orderly ⟨⟨executor, script⟩, dependency, given⟩
      (executor.executeFrom script given runners).2 := by
  have hstart : Watch.Orderly ⟨⟨executor, script⟩, dependency, given⟩
      ({ results := given, runners } : RunState σ) := ⟨rfl, .nil⟩
  exact (Watch.keeps_runAll _ _ hstart (.inl .order)).1

/-- Lists of dependencies change nothing in a run but what runners are shown. They are respected
where the rest of the script brings the dependencies first. Whenever a step is called, or an
operation is entered, each of its dependencies has a result from earlier in the run, unless there is
a course to the step or the operation on which the dependency gets none. Each such course is taken
by a run, of an executor that answers steps as the course does. -/
theorem Executor.dependency_done {σ : Type} (executor : Executor σ) (script : Script)
    (runners : σ) :
    let run := executor.execute script runners
    let taking := (Executor.answering executor.policy script.keyCount).execute script
    (∀ lists : Uid → List Uid,
      let changed := executor.execute (script.withDependsOn lists) runners
      let shown := (executor.showing lists).execute script runners
      changed.1 = shown.1 ∧ changed.2.withoutDependsOn = shown.2.withoutDependsOn) ∧
      run.2.results = replayed ∅ run.2.journal ∧
      (∀ before slot step answer after, run.2.journal = before ++ .call slot step answer :: after →
        script.Asks step ∧ ∀ dependency ∈ step.dependsOn,
          (script.isValid →
            script.steps.contains dependency ∨ script.operations.contains dependency) ∧
          (¬ script.Bypasses executor.policy dependency (.step step.id) →
            (replayed ∅ before).contains dependency)) ∧
      (∀ before uid after operation, run.2.journal = before ++ .enter (.operation uid) :: after →
        script.operations.get? uid = some operation → ∀ dependency ∈ operation.dependsOn,
          (script.isValid →
            script.steps.contains dependency ∨ script.operations.contains dependency) ∧
          (¬ script.Bypasses executor.policy dependency (.operation uid) →
            (replayed ∅ before).contains dependency)) ∧
      (∀ uid step dependency, script.steps.get? uid = some step →
        script.Bypasses executor.policy dependency (.step uid) →
        ∃ answers before answer after, (taking answers).2.journal =
            before ++ .call .default { step with id := uid } answer :: after ∧
          (replayed ∅ before).contains dependency = false) ∧
      ∀ uid operation dependency, script.operations.get? uid = some (.conditional operation) →
        script.Bypasses executor.policy dependency (.operation uid) →
        ∃ answers before after,
          (taking answers).2.journal = before ++ .enter (.operation uid) :: after ∧
          (replayed ∅ before).contains dependency = false := by
  intro run taking
  have horderly (dependency : Uid) := executor.orderly_executeFrom script dependency ∅ runners
  have hvalid (dependent : Dependent) (uids : List Uid) (h : script.Declares dependent uids)
      (dependency : Uid) (hmem : dependency ∈ uids) (hvalid : script.isValid) :=
    ((Script.isValid_iff_wellFormed.mp hvalid).dependencies dependent uids h dependency hmem).2
  refine ⟨fun lists => executor.executeFrom_withDependsOn script lists ∅ runners,
    (horderly "").results_eq, fun before slot step answer after heq => ?_,
    fun before uid after operation heq hoperation dependency hmem => ?_,
    fun uid step dependency hstep => ?_, fun uid operation dependency hoperation => ?_⟩
  · obtain ⟨hasks, -⟩ := (horderly "").lawful before _ after heq
    refine ⟨hasks, fun dependency hmem => ⟨?_, fun hbypasses => ?_⟩⟩
    · obtain ⟨found, hfound, hstep⟩ := hasks
      rw [hstep] at hmem
      exact hvalid _ _ (.step hfound) dependency hmem
    · exact ((horderly dependency).lawful before _ after heq).2.resolve_left
        fun ⟨frames, hpasses⟩ => hbypasses ⟨frames, _, hpasses⟩
  · refine ⟨hvalid _ _ (.operation hoperation) dependency hmem, fun hbypasses => ?_⟩
    exact ((horderly dependency).lawful before _ after heq).resolve_left
      fun ⟨frames, hpasses⟩ => hbypasses ⟨frames, _, hpasses⟩
  · rintro ⟨frames, results, hpasses⟩
    obtain ⟨answers, before, answer, after, hjournal, heq⟩ := hpasses.exists_call hstep
    exact ⟨answers, before, answer, after, hjournal, heq ▸ hpasses.lacks rfl⟩
  · rintro ⟨frames, results, hpasses⟩
    obtain ⟨answers, before, after, hjournal, heq⟩ := hpasses.exists_enter hoperation
    exact ⟨answers, before, after, hjournal, heq ▸ hpasses.lacks rfl⟩

def Executor.willing : Executor Unit where
  defaultRunner := some fun _ _ => (.ok .null, ())

/-- The second step depends on the first one, and its operation on the one before it. Both run in
any case. -/
def Script.patient : Script where
  order := ((OperationOrder.empty.insert "op_1").1.insert "op_2").1
  operations := Table.ofList [
    ("op_1", .conditional {
      conditions := Table.ofList [("cond_1", { work := some "step_1" })]
      order := ["cond_1"] }),
    ("op_2", .conditional {
      dependsOn := ["op_1"]
      conditions := Table.ofList [("cond_2", { work := some "step_2" })]
      order := ["cond_2"] })]
  steps := Table.ofList [
    ("step_1", ⟨"step_1", .native, .native .null, none, [], 0⟩),
    ("step_2", ⟨"step_2", .native, .native .null, none, ["step_1"], 0⟩)]

theorem Script.patient_not_operation {dependency : Uid} {frames : List Frame}
    {results : Table Json}
    (h : ∀ r s, ¬ Detour.Passes ⟨patient, .all, ∅, dependency⟩ (.done "op_1" [] r s)) :
    ¬ Detour.Passes ⟨patient, .all, ∅, dependency⟩ (.operation "op_2" frames results) := by
  have hwork : ∀ row ∈ Script.patient.rows, row.work ≠ some "op_2" := by decide
  refine Detour.Passes.not_operation (fun front rest heq => ?_) hwork
  have huids : "op_1" :: ["op_2"] = front ++ "op_2" :: rest := heq
  cases front with
  | nil => exact absurd (List.cons.inj huids).1 (by decide)
  | cons first front => exact ⟨"op_1", by simp [(List.cons.inj huids).1], h⟩

theorem Script.not_bypasses_patient :
    ¬ Script.patient.Bypasses .all "step_1" (.step "step_2") ∧
      ¬ Script.patient.Bypasses .all "op_1" (.operation "op_2") := by
  have howner : ∀ entry ∈ Script.patient.conditionals, ∀ found ∈ entry.2.conditions.entries,
      found.2.work = some "step_2" → entry.1 = "op_2" := by decide
  have hrow : Script.patient.HasRow "op_1" _ "cond_1" _ := ⟨rfl, rfl⟩
  constructor
  · rintro ⟨frames, results, hstep⟩
    obtain ⟨owner, operation, condition, row, r, hfound, hwork, hverdict⟩ :=
      hstep.exists_row_of_step
    have heq := howner _ (Script.mem_conditionals_iff.mpr hfound.get_operation) _
      (Table.get?_eq_some_iff.mp hfound.get_row) hwork
    cases heq
    obtain ⟨around, start, hoperation⟩ := hverdict.operation_of_verdict
    refine Script.patient_not_operation (fun r s => ?_) hoperation
    exact Detour.Passes.not_done_of_always hrow rfl ⟨rfl, nofun⟩ rfl
  · rintro ⟨frames, results, hoperation⟩
    exact Script.patient_not_operation (fun r s hdone => hdone.done_ne rfl) hoperation

def Script.hasty : Script where
  order := ((OperationOrder.empty.insert "op_1").1.insert "op_2").1
  operations := Table.ofList [
    ("op_1", .conditional {
      dependsOn := ["op_2"]
      conditions := Table.ofList [
        ("cond_1", { left := some (.static (.bool true)), work := some "step_1" })]
      order := ["cond_1"] }),
    ("op_2", .conditional {
      conditions := Table.ofList [("cond_2", { left := some (.static (.bool true)) })]
      order := ["cond_2"] })]
  steps := Table.ofList [("step_1", ⟨"step_1", .native, .native .null, none, ["op_2"], 0⟩)]

theorem Script.bypasses_hasty : Script.hasty.Bypasses .all "op_2" (.step "step_1") ∧
    Script.hasty.Bypasses .all "op_2" (.operation "op_1") := by
  let detour : Detour := ⟨Script.hasty, .all, ∅, "op_2"⟩
  have hrow : Script.hasty.HasRow "op_1" _ "cond_1" _ := ⟨rfl, rfl⟩
  have hoperation : detour.Passes (.operation "op_1" [] ∅) := .operation .order
  have hconditions : detour.Passes (.conditions "op_1" [] ∅ ["cond_1"] [] ∅) :=
    .conditions hoperation rfl
  have hverdict := Detour.Passes.settled (.condition hconditions (by decide)) hrow .static rfl
    (by decide)
  exact ⟨⟨_, _, .step hverdict hrow rfl (by decide)⟩, _, _, hoperation⟩

theorem Script.patient_dependency_done :
    let run := Executor.willing.execute Script.patient ()
    let bare := Executor.willing.execute (Script.patient.withDependsOn fun _ => []) ()
    let entry := run.2.journal.take 11
    let call := run.2.journal.take 16
    let taking := (Executor.answering .all Script.hasty.keyCount).execute Script.hasty
    Script.patient.isValid ∧ run.1 = .ok () ∧
      bare.1 = .ok () ∧ bare.2.withoutDependsOn = run.2.withoutDependsOn ∧
      (Script.patient.steps.contains "op_1" ∨ Script.patient.operations.contains "op_1") ∧
      (replayed ∅ entry).contains "op_1" ∧
      (Script.patient.steps.contains "step_1" ∨ Script.patient.operations.contains "step_1") ∧
      (replayed ∅ call).contains "step_1" ∧
      (∃ answers before answer after, (taking answers).2.journal = before ++
          .call .default ⟨"step_1", .native, .native .null, none, ["op_2"], 0⟩ answer :: after ∧
        (replayed ∅ before).contains "op_2" = false) ∧
      ∃ answers before after,
        (taking answers).2.journal = before ++ .enter (.operation "op_1") :: after ∧
        (replayed ∅ before).contains "op_2" = false := by
  intro run bare entry call taking
  have hvalid : Script.patient.isValid := by decide
  obtain ⟨hstep, hoperation⟩ := Script.not_bypasses_patient
  obtain ⟨hlists, -, hcalls, hentries, -⟩ := Executor.willing.dependency_done Script.patient ()
  obtain ⟨-, -, -, -, hcalls', hentries'⟩ := Executor.willing.dependency_done Script.hasty ()
  have hget : Script.hasty.steps.get? "step_1" =
      some ⟨"step_1", .native, .native .null, none, ["op_2"], 0⟩ := rfl
  obtain ⟨hending, hstate⟩ := hlists fun _ => []
  have hentry : run.2.journal = entry ++ .enter (.operation "op_2") :: run.2.journal.drop 12 := rfl
  have hcall : run.2.journal = call ++ .call .default
      ⟨"step_2", .native, .native .null, none, ["step_1"], 0⟩ (.ok .null) ::
        run.2.journal.drop 17 := rfl
  obtain ⟨hbefore, hentered⟩ := hentries entry _ _ _ hentry rfl "op_1" List.mem_cons_self
  obtain ⟨-, hdependencies⟩ := hcalls call _ _ _ _ hcall
  obtain ⟨hfirst, hcalled⟩ := hdependencies "step_1" List.mem_cons_self
  exact ⟨hvalid, rfl, hending, hstate, hbefore hvalid, hentered hoperation, hfirst hvalid,
    hcalled hstep, hcalls' _ _ _ hget Script.bypasses_hasty.1,
    hentries' _ _ _ rfl Script.bypasses_hasty.2⟩

/-- The script is valid and its run succeeds. But nothing has a result when the first operation is
entered, and nothing but its condition when the step is called. -/
theorem Script.hasty_dependency_not_done :
    let run := Executor.willing.execute Script.hasty ()
    let step : Step := ⟨"step_1", .native, .native .null, none, ["op_2"], 0⟩
    let entry := run.2.journal.take 1
    let call := run.2.journal.take 6
    Script.hasty.isValid ∧ run.1 = .ok () ∧
      run.2.journal = entry ++ .enter (.operation "op_1") :: run.2.journal.drop 2 ∧
      (Script.hasty.operations.get? "op_1").map Operation.dependsOn = some ["op_2"] ∧
      (replayed ∅ entry).contains "op_2" = false ∧
      run.2.journal = call ++ .call .default step (.ok .null) :: run.2.journal.drop 7 ∧
      Script.hasty.steps.get? "step_1" = some step ∧
      (replayed ∅ call).contains "op_2" = false :=
  ⟨by decide, rfl, rfl, rfl, rfl, rfl, rfl, rfl⟩

end Workflow
