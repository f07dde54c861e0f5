import Workflow.Proofs.Run.Bypassing
import Workflow.Proofs.Run.Coupling
import Workflow.Proofs.Run.Journal

/-!
Courses that runs take. An executor with the answers of a course at hand, which its runner gives one
after the other, comes to whatever the course comes to. Main statement: each step and each operation
that a course starts is started by a run, from the same results.
-/

set_option autoImplicit false

namespace Workflow

/-- Runners that give prepared answers one after the other. -/
def Executor.answering (policy : MatchPolicy) (maxDepth : Nat) : Executor (List Json) where
  defaultRunner := some fun _ answers =>
    match answers with
    | [] => (.error "no answer is left", [])
    | answer :: answers => (.ok answer, answers)
  policy := policy
  maxDepth := maxDepth

/-- The journal of the second action begins with that of the first one. -/
def Run.Starts {σ α β : Type} (first : Run σ α) (whole : Run σ β) : Prop :=
  ∀ state, (first.outcome state).2.journal <+: (whole.outcome state).2.journal

namespace Run.Starts

variable {σ α β γ : Type} {action : Run σ α}

theorem trans {first : Run σ α} {second : Run σ β} {third : Run σ γ} (h : first.Starts second)
    (h' : second.Starts third) : first.Starts third :=
  fun state => (h state).trans (h' state)

theorem pure {whole : Run σ β} (h : whole.Grows) (a : α) :
    (Pure.pure a : Run σ α).Starts whole := h

theorem bind_left {f : α → Run σ β} (h : ∀ a, (f a).Grows) : action.Starts (action >>= f) := by
  intro state
  rw [Run.outcome_bind]
  rcases action.outcome state with ⟨error | a, after⟩
  · exact List.prefix_refl _
  · exact h a after

theorem bind {f : α → Run σ β} {g : α → Run σ γ} (h : ∀ a, (f a).Starts (g a)) :
    (action >>= f).Starts (action >>= g) := by
  intro state
  rw [Run.outcome_bind, Run.outcome_bind]
  rcases action.outcome state with ⟨error | a, after⟩
  · exact List.prefix_refl _
  · exact h a after

theorem entering {frame : Frame} {path : List Uid} {body : List Uid → Run σ α}
    (hnew : frame.uid ∉ path) (hbody : (body (frame.uid :: path)).Grows) :
    (Run.note (.enter frame)).Starts (Run.entering frame path body) := by
  rw [Run.entering, if_neg hnew]
  exact .bind_left fun _ => .bind hbody fun a => .bind (.note _) fun _ => .pure a

end Run.Starts

namespace Detour

/-- An executor that takes courses. Its limit is out of reach. -/
def engine (detour : Detour) : Engine (List Json) :=
  ⟨.answering detour.policy detour.script.keyCount, detour.script⟩

/-- Calls of frames above which there is room for `room` more. -/
def below (detour : Detour) (room : Nat) : Below (List Json) :=
  detour.engine.unfold Engine.refusing (room + 1)

structure At (detour : Detour) (results : Table Json) (answers : List Json)
    (state : RunState (List Json)) : Prop where
  results_eq : state.results = results
  replayed_eq : replayed detour.given state.journal = results
  runners_eq : state.runners = answers

variable {detour : Detour} {α β γ : Type} {xs ys : List Json} {action : Run (List Json) α}
  {f : α → Run (List Json) β} {P : α → Prop} {Q : β → Prop} {r s t u : Table Json}

/-- With these answers a state with the first results has one with the second results in the
relation; the answers behind them are left. -/
def Brings (detour : Detour) (answers : List Json) (r s : Table Json)
    (relation : RunState (List Json) → RunState (List Json) → Prop) : Prop :=
  ∀ left state, detour.At r (answers ++ left) state →
    ∃ next, relation state next ∧ detour.At s left next

/-- The action succeeds. -/
def Takes (detour : Detour) (answers : List Json) (action : Run (List Json) α) (r : Table Json)
    (after : α → Prop) (s : Table Json) : Prop :=
  detour.Brings answers r s fun state next =>
    ∃ a, action.outcome state = (.ok a, next) ∧ after a

/-- The first action does something, and then what the second one does. -/
def Turns (detour : Detour) (answers : List Json) (action : Run (List Json) α) (r : Table Json)
    (rest : Run (List Json) α) (s : Table Json) : Prop :=
  detour.Brings answers r s fun state next => action.outcome state = rest.outcome next

/-- The first action comes to the second one. -/
def Leads (detour : Detour) (answers : List Json) (action : Run (List Json) α) (r : Table Json)
    (inner : Run (List Json) β) (s : Table Json) : Prop :=
  detour.Brings answers r s fun state next =>
    (inner.outcome next).2.journal <+: (action.outcome state).2.journal

theorem Brings.trans {first last : RunState (List Json) → RunState (List Json) → Prop}
    (h : detour.Brings xs r s first)
    (hnext : ∀ state middle, first state middle → ∀ left, detour.At s (ys ++ left) middle →
      ∃ next, last state next ∧ detour.At t left next) :
    detour.Brings (xs ++ ys) r t last := by
  intro left state hat
  rw [List.append_assoc] at hat
  obtain ⟨middle, hfirst, hmiddle⟩ := h _ state hat
  exact hnext state middle hfirst left hmiddle

namespace At

variable {left : List Json} {state : RunState (List Json)}

theorem noted (h : detour.At r left state) {event : Event}
    (hresults : ∀ results, event.resultsAfter results = results) :
    detour.At r left (state.noted event) where
  results_eq := h.results_eq
  replayed_eq := by
    change replayed detour.given (state.journal ++ [event]) = r
    rw [replayed_append, hresults, h.replayed_eq]
  runners_eq := h.runners_eq

theorem stored (h : detour.At r left state) (uid : Uid) (value : Json) :
    detour.At (r.insert uid value) left (state.stored uid value) where
  results_eq := congrArg (Table.insert · uid value) h.results_eq
  replayed_eq := by
    change replayed detour.given (state.journal ++ [.store uid value]) = r.insert uid value
    rw [replayed_append, h.replayed_eq]
    rfl
  runners_eq := h.runners_eq

theorem recorded (h : detour.At r left state) (record : TraceRecord) :
    detour.At r left (state.recorded record) := ⟨h.results_eq, h.replayed_eq, h.runners_eq⟩

end At

namespace Takes

theorem pure {a : α} (h : P a) : detour.Takes [] (Pure.pure a) r P r :=
  fun _ state hat => ⟨state, ⟨a, rfl, h⟩, hat⟩

theorem bind (h : detour.Takes xs action r P s) (hf : ∀ a, P a → detour.Takes ys (f a) s Q t) :
    detour.Takes (xs ++ ys) (action >>= f) r Q t :=
  Brings.trans h fun state middle ⟨a, heq, ha⟩ left hat => by
    rw [Run.outcome_bind_ok heq]
    exact hf a ha left middle hat

theorem andThen (h : detour.Takes xs action r P s) (hf : ∀ a, P a → detour.Takes [] (f a) s Q t) :
    detour.Takes xs (action >>= f) r Q t := by
  simpa using h.bind hf

theorem note {event : Event} (hresults : ∀ results, event.resultsAfter results = results) :
    detour.Takes [] (Run.note event) r (fun _ => True) r :=
  fun _ state hat => ⟨state.noted event, ⟨(), rfl, trivial⟩, hat.noted hresults⟩

theorem store (uid : Uid) (value : Json) :
    detour.Takes [] (Run.store uid value) r (fun _ => True) (r.insert uid value) :=
  fun _ state hat => ⟨state.stored uid value, ⟨(), rfl, trivial⟩, hat.stored uid value⟩

theorem record (record : TraceRecord) :
    detour.Takes [] (Run.record record) r (fun _ => True) r :=
  fun _ state hat => ⟨state.recorded record, ⟨(), rfl, trivial⟩, hat.recorded record⟩

theorem checkDepth {uid : Uid} {depth : Nat} (h : depth ≤ detour.script.keyCount) :
    detour.Takes [] (detour.engine.checkDepth uid depth) r (fun _ => True) r := by
  have hdepth : ¬ detour.engine.executor.maxDepth < depth := Nat.not_lt.mpr h
  rw [Engine.checkDepth, if_neg hdepth]
  exact pure trivial

theorem entering {frame : Frame} {path : List Uid} {body : List Uid → Run (List Json) α}
    (hnew : frame.uid ∉ path) (h : detour.Takes xs (body (frame.uid :: path)) r P s) :
    detour.Takes xs (Run.entering frame path body) r P s := by
  rw [Run.entering, if_neg hnew]
  refine (note fun _ => rfl).bind fun _ _ => h.andThen fun a ha => ?_
  exact (note fun _ => rfl).bind fun _ _ => pure ha

theorem runStep (uid : Uid) (step : Step) (value : Json) :
    detour.Takes [value] (detour.engine.runStep uid step) r (fun _ => True)
      (r.insert uid value) := by
  intro left state hat
  have hcalled : detour.At r left
      (state.called .default { step with id := uid } (.ok value) left) := by
    have hnoted : detour.At r (value :: left)
        (state.noted (.call .default { step with id := uid } (.ok value))) :=
      hat.noted fun _ => rfl
    exact ⟨hnoted.results_eq, hnoted.replayed_eq, rfl⟩
  refine ⟨_, ⟨(), ?_, trivial⟩, hcalled.stored uid value⟩
  rw [Engine.outcome_runStep]
  simp [engine, Executor.answering, Executor.runnerFor?, hat.runners_eq]

end Takes

namespace Turns

variable {rest last : Run (List Json) α} {g : Run (List Json) β}

theorem refl : detour.Turns [] action r action r := fun _ state hat => ⟨state, rfl, hat⟩

theorem trans (h : detour.Turns xs action r rest s) (hrest : detour.Turns ys rest s last t) :
    detour.Turns (xs ++ ys) action r last t :=
  Brings.trans h fun _ middle heq left hat => by
    rw [heq]
    exact hrest left middle hat

theorem bind (h : detour.Takes xs action r P s) (hf : ∀ a, P a → detour.Turns ys (f a) s g t) :
    detour.Turns (xs ++ ys) (action >>= f) r g t :=
  Brings.trans h fun _ middle ⟨a, heq, ha⟩ left hat => by
    rw [Run.outcome_bind_ok heq]
    exact hf a ha left middle hat

theorem takes (h : detour.Turns xs action r rest s) (hrest : detour.Takes ys rest s P t) :
    detour.Takes (xs ++ ys) action r P t :=
  Brings.trans h fun _ middle heq left hat => by
    rw [heq]
    exact hrest left middle hat

theorem leads (h : detour.Turns xs action r rest s) : detour.Leads xs action r rest s := by
  intro left state hat
  obtain ⟨next, heq, hnext⟩ := h left state hat
  refine ⟨next, ?_, hnext⟩
  simp only [heq]
  exact List.prefix_refl _

end Turns

namespace Leads

variable {inner : Run (List Json) β} {deeper : Run (List Json) γ}

theorem trans (h : detour.Leads xs action r inner s) (hinner : detour.Leads ys inner s deeper t) :
    detour.Leads (xs ++ ys) action r deeper t :=
  Brings.trans h fun _ middle hprefix left hat =>
    let ⟨next, hprefix', hnext⟩ := hinner left middle hat
    ⟨next, hprefix'.trans hprefix, hnext⟩

theorem of_starts (h : inner.Starts action) : detour.Leads [] action r inner r :=
  fun _ state hat => ⟨state, h state, hat⟩

theorem andThen {inner : Run (List Json) γ} (h : detour.Takes xs action r P s)
    (hf : ∀ a, P a → inner.Starts (f a)) : detour.Leads xs (action >>= f) r inner s := by
  intro left state hat
  obtain ⟨next, ⟨a, heq, ha⟩, hnext⟩ := h left state hat
  refine ⟨next, ?_, hnext⟩
  simp only [Run.outcome_bind_ok heq]
  exact hf a ha next

theorem entering {frame : Frame} {path : List Uid} {body : List Uid → Run (List Json) α}
    (hnew : frame.uid ∉ path) :
    detour.Leads [] (Run.entering frame path body) r (body (frame.uid :: path)) r := by
  rw [Run.entering, if_neg hnew]
  refine andThen (Takes.note fun _ => rfl) fun _ _ => .bind_left fun a => ?_
  exact .bind (.note _) fun _ => .pure a

end Leads

variable {uid condition : Uid} {operation : Conditional} {row : ConditionRow} {room depth : Nat}
  {frames : List Frame}

theorem exists_room (frame : Frame) (hfits : detour.script.Fits room frames)
    (hnew : frame.uid ∉ Frame.path frames) (hmem : frame.uid ∈ detour.script.enterable) :
    ∃ less, room = less + 1 ∧ detour.script.Fits less (frame :: frames) := by
  cases room with
  | zero => exact absurd (hfits.mem_path hmem) hnew
  | succ less => exact ⟨less, rfl, hfits.cons hnew hmem⟩

theorem pairs_runAction (hrow : detour.script.HasRow uid operation condition row) (path : List Uid) :
    Coupling.same.Pairs (detour.engine.runAction (detour.below room) row condition depth path)
      (detour.engine.runAction (detour.below room) row condition depth path) :=
  detour.engine.coupled_self.runAction (detour.engine.pairsBelow_self (room + 1)) trivial hrow
    condition depth path

theorem grows_operandOrNull {operand : Option Operand}
    (hrow : detour.script.HasRow uid operation condition row)
    (hmem : ∀ value, operand = some value → value ∈ row.operands) (path : List Uid) :
    (detour.engine.operandOrNull (detour.below room) operation operand depth path).Grows := by
  have hpairs : Coupling.same.Pairs
      (detour.engine.operandOrNull (detour.below room) operation operand depth path)
      (detour.engine.operandOrNull (detour.below room) operation operand depth path) := by
    refine Coupling.same.parametric_pairs.operandOrNull _ _ fun value hvalue => ?_
    refine Coupling.same.parametric_pairs.operand _ _ rfl
      (detour.engine.coupled_self.leaf trivial hrow (hmem value hvalue))
      fun owner nested _ _ hnested => ?_
    have hfound : detour.script.HasRow uid operation owner nested := ⟨hrow.get_operation, hnested⟩
    exact ⟨(detour.engine.pairsBelow_self (room + 1)).condition _ _ trivial hfound rfl,
      pairs_runAction hfound path⟩
  exact hpairs.grows

theorem grows_runConditions
    (hoperation : detour.script.operations.get? uid = some (.conditional operation))
    (room depth : Nat) (path conditions matched : List Uid) :
    (detour.engine.runConditions (detour.below room) uid operation depth path conditions
      matched).Grows :=
  (detour.engine.coupled_self.runConditions (detour.engine.pairsBelow_self (room + 1)) trivial
    hoperation rfl depth path conditions matched).grows

theorem grows_runListedBy (uids : List Uid) :
    (detour.engine.runListedBy (detour.below room) uids).Grows :=
  (detour.engine.coupled_self.runListedBy (detour.engine.pairsBelow_self (room + 1)) uids
    fun _ _ => trivial).grows

theorem turns_operation (hfits : detour.script.Fits (room + 1) frames)
    (hdepth : depth ≤ frames.length)
    (hoperation : detour.script.operations.get? uid = some (.conditional operation)) :
    detour.Turns [] ((detour.below (room + 1)).operation uid depth (Frame.path frames)) r (do
      let matched ← Run.entering (.operation uid) (Frame.path frames) fun path =>
        detour.engine.runConditions (detour.below room) uid operation depth path operation.order []
      Run.store uid (operationResult matched)) r := by
  have hfound : detour.engine.findOperation uid depth = (do
      Run.note (.visit (.operation uid) depth)
      detour.engine.checkDepth uid depth
      return operation) := by
    simp only [Engine.findOperation, engine, hoperation]
  change detour.Turns [] (detour.engine.findOperation uid depth >>= _) r _ r
  rw [hfound]
  simp only [bind_assoc, pure_bind]
  refine .bind (.note fun _ => rfl) fun _ _ => .bind (.checkDepth ?_) fun _ _ => .refl
  exact Nat.le_trans hdepth hfits.length_le

theorem turns_condition (hfits : detour.script.Fits (room + 1) frames)
    (hdepth : depth < frames.length)
    (hrow : detour.script.HasRow uid operation condition row) :
    detour.Turns []
      ((detour.below (room + 1)).condition operation condition depth (Frame.path frames)) r (do
        let trace ← Run.entering (.condition condition) (Frame.path frames) fun path =>
          detour.engine.evaluateRow (detour.below room) operation row depth path
        Run.store condition (conditionResult trace.holds)
        return trace) r := by
  have hfound : detour.engine.findCondition operation condition depth = (do
      Run.note (.visit (.condition condition) depth)
      detour.engine.checkDepth condition depth
      return row) := by
    simp only [Engine.findCondition, hrow.get_row]
  change detour.Turns [] (detour.engine.findCondition operation condition depth >>= _) r _ r
  rw [hfound]
  simp only [bind_assoc, pure_bind]
  refine .bind (.note fun _ => rfl) fun _ _ => .bind (.checkDepth ?_) fun _ _ => .refl
  exact Nat.le_trans (Nat.le_of_lt hdepth) hfits.length_le

/-- The evaluation of a condition, and its work if it holds. -/
def attempt (detour : Detour) (room : Nat) (operation : Conditional) (condition : Uid)
    (row : ConditionRow) (depth deeper : Nat) (path : List Uid) : Run (List Json) Unit := do
  let trace ← (detour.below room).condition operation condition depth path
  if trace.holds then
    let _ ← detour.engine.runAction (detour.below room) row condition deeper path
    return ()
  else return ()

theorem starts_attempt (hrow : detour.script.HasRow uid operation condition row)
    (deeper : Nat) (path : List Uid) :
    ((detour.below room).condition operation condition depth path).Starts
      (detour.attempt room operation condition row depth deeper path) := by
  refine .bind_left fun trace => ?_
  split
  · exact (pairs_runAction hrow path).grows.bind fun _ => .pure _
  · exact fun _ => List.prefix_refl _

theorem attempt_starts_runConditions (hrow : detour.script.HasRow uid operation condition row)
    (path rest matched : List Uid) :
    (detour.attempt room operation condition row depth (depth + 1) path).Starts
      (detour.engine.runConditions (detour.below room) uid operation depth path (condition :: rest)
        matched) := by
  have hrest (matched : List Uid) : (detour.engine.runConditions (detour.below room) uid operation
      depth path rest matched).Grows :=
    grows_runConditions hrow.get_operation room depth path rest matched
  simp only [Engine.runConditions, hrow.get_row]
  refine .bind fun trace => ?_
  split
  · refine .bind fun work => ?_
    refine .pure (.bind (.record _) fun _ => ?_) ()
    split
    · exact .pure _
    · exact hrest _
  · exact .pure (.bind (.record _) fun _ => hrest _) ()

theorem operand_eq_of_evaluates (hrow : detour.script.HasRow uid operation condition row)
    (hevaluates : operation.Evaluates condition) (path : List Uid) :
    detour.engine.operand (detour.below room) operation
      (.internal condition Operand.conditionKey) depth path = do
        let trace ← (detour.below room).condition operation condition (depth + 1) path
        if trace.holds then
          let _ ← detour.engine.runAction (detour.below room) row condition (depth + 1) path
          return trace
        else return trace := by
  simp only [Engine.operand, hevaluates.1, hrow.get_row, if_true]

theorem attempt_starts_operand (hrow : detour.script.HasRow uid operation condition row)
    (hevaluates : operation.Evaluates condition) (path : List Uid) :
    (detour.attempt room operation condition row (depth + 1) (depth + 1) path).Starts
      (detour.engine.operand (detour.below room) operation
        (.internal condition Operand.conditionKey) depth path) := by
  rw [operand_eq_of_evaluates hrow hevaluates]
  refine .bind fun trace => ?_
  split
  · exact .bind fun _ _ => List.prefix_refl _
  · exact fun _ => List.prefix_refl _

/-- With some answers a run comes to the action, with these results. -/
def Comes (detour : Detour) (inner : Run (List Json) α) (s : Table Json) : Prop :=
  ∃ answers, detour.Leads answers
    (detour.engine.runListedBy (detour.below detour.script.keyCount) detour.script.order.uids)
    detour.given inner s

theorem Comes.leads {inner : Run (List Json) β} (h : detour.Comes action r)
    (hleads : detour.Leads xs action r inner s) : detour.Comes inner s := by
  obtain ⟨answers, hcomes⟩ := h
  exact ⟨_, hcomes.trans hleads⟩

theorem Comes.starts {inner : Run (List Json) β} (h : detour.Comes action r)
    (hstarts : inner.Starts action) : detour.Comes inner r := h.leads (.of_starts hstarts)

/-- Runs with the right answers take the course up to this stage: they come to what it starts, and
do what it does. -/
def Taken (detour : Detour) : Stage → Prop
  | .order rest r =>
    detour.Comes (detour.engine.runListedBy (detour.below detour.script.keyCount) rest) r
  | .operation uid frames r => uid ∉ Frame.path frames ∧
      ∀ operation, detour.script.operations.get? uid = some (.conditional operation) →
        ∃ room depth, detour.script.Fits room frames ∧ depth ≤ frames.length ∧
          detour.Comes ((detour.below room).operation uid depth (Frame.path frames)) r
  | .conditions uid frames r rest matched s => ∃ operation, uid ∉ Frame.path frames ∧
      detour.script.operations.get? uid = some (.conditional operation) ∧
      (∃ room depth, detour.script.Fits room (.operation uid :: frames) ∧ depth ≤ frames.length ∧
        detour.Comes (detour.engine.runConditions (detour.below room) uid operation depth
          (Frame.path (.operation uid :: frames)) operation.order []) r) ∧
      ∃ answers, ∀ room depth, detour.script.Fits room (.operation uid :: frames) →
        depth ≤ frames.length →
        detour.Turns answers
          (detour.engine.runConditions (detour.below room) uid operation depth
            (Frame.path (.operation uid :: frames)) operation.order []) r
          (detour.engine.runConditions (detour.below room) uid operation depth
            (Frame.path (.operation uid :: frames)) rest matched) s
  | .condition uid condition frames s => condition ∉ Frame.path frames ∧
      ∀ operation row, detour.script.HasRow uid operation condition row →
        ∃ room depth deeper, detour.script.Fits room frames ∧ depth < frames.length ∧
          deeper ≤ frames.length ∧
          detour.Comes
            (detour.attempt room operation condition row depth deeper (Frame.path frames)) s
  | .operand uid frames operand s value t =>
      ∀ operation, detour.script.operations.get? uid = some (.conditional operation) →
        ∃ answers, ∀ room depth, detour.script.Fits room frames → depth + 1 < frames.length →
          detour.Takes answers (detour.engine.operandOrNull (detour.below room) operation operand
            depth (Frame.path frames)) s (fun trace => trace.value = value) t
  | .verdict uid condition frames s holds t =>
      ∃ operation row, detour.script.HasRow uid operation condition row ∧
        (∃ answers, ∀ room depth, detour.script.Fits room frames → depth < frames.length →
          detour.Takes answers
            ((detour.below room).condition operation condition depth (Frame.path frames)) s
            (fun trace => trace.holds = holds ∧ trace.value = .bool holds) t) ∧
        (holds → ∃ room deeper, detour.script.Fits room frames ∧ deeper ≤ frames.length ∧
          detour.Comes (detour.engine.runAction (detour.below room) row condition deeper
            (Frame.path frames)) t)
  | .step uid _ r => WorkKind.of? uid ≠ some .operation ∧
      ∀ step, detour.script.steps.get? uid = some step →
        detour.Comes (detour.engine.runStep uid step) r
  | .acted uid condition frames t u =>
      ∃ operation row, detour.script.HasRow uid operation condition row ∧
        ∃ answers, ∀ room depth, detour.script.Fits room frames → depth ≤ frames.length →
          detour.Takes answers (detour.engine.runAction (detour.below room) row condition depth
            (Frame.path frames)) t (fun _ => True) u
  | .done uid frames r s => detour.script.operations.contains uid ∧
      ∃ answers, ∀ room depth, detour.script.Fits room frames → depth ≤ frames.length →
        detour.Takes answers ((detour.below room).operation uid depth (Frame.path frames)) r
          (fun _ => True) s

namespace Taken

theorem order : detour.Taken (.order detour.script.order.uids detour.given) :=
  ⟨[], Turns.refl.leads⟩

theorem fits_nil : detour.script.Fits detour.script.keyCount [] where
  toStacks := detour.script.stacks_nil
  keyCount_le := by simp

theorem runListedBy_cons {rest : List Uid} (hcontains : detour.script.operations.contains uid) :
    detour.engine.runListedBy (detour.below room) (uid :: rest) = (do
      (detour.below room).operation uid 0 []
      detour.engine.runListedBy (detour.below room) rest) := by
  have hthere : detour.engine.script.operations.contains uid := hcontains
  rw [Engine.runListedBy, if_pos hthere]

theorem listed {rest : List Uid} (h : detour.Taken (.order (uid :: rest) r)) :
    detour.Taken (.operation uid [] r) := by
  refine ⟨List.not_mem_nil, fun operation hoperation => ?_⟩
  have hcontains : detour.script.operations.contains uid := by simp [Table.contains, hoperation]
  refine ⟨_, 0, fits_nil, Nat.le_refl 0, h.starts ?_⟩
  rw [runListedBy_cons hcontains]
  exact .bind_left fun _ => grows_runListedBy rest

theorem next {rest : List Uid} (h : detour.Taken (.order (uid :: rest) r))
    (hdone : detour.Taken (.done uid [] r s)) : detour.Taken (.order rest s) := by
  obtain ⟨hcontains, answers, htakes⟩ := hdone
  have hleads : detour.Leads answers
      (detour.engine.runListedBy (detour.below detour.script.keyCount) (uid :: rest)) r
      (detour.engine.runListedBy (detour.below detour.script.keyCount) rest) s := by
    rw [runListedBy_cons hcontains]
    exact .andThen (htakes _ 0 fits_nil (Nat.le_refl 0)) fun _ _ _ => List.prefix_refl _
  exact h.leads hleads

theorem conditions (h : detour.Taken (.operation uid frames r))
    (hoperation : detour.script.operations.get? uid = some (.conditional operation)) :
    detour.Taken (.conditions uid frames r operation.order [] r) := by
  obtain ⟨hnew, hcalled⟩ := h
  obtain ⟨room, depth, hfits, hdepth, hcomes⟩ := hcalled operation hoperation
  obtain ⟨less, rfl, hless⟩ := exists_room (.operation uid) hfits hnew
    (Script.mem_enterable_of_operation hoperation)
  refine ⟨operation, hnew, hoperation, ⟨less, depth, hless, hdepth, ?_⟩,
    [], fun _ _ _ _ => .refl⟩
  have hstarts := hcomes.leads (turns_operation hfits hdepth hoperation).leads
  exact (hstarts.starts (.bind_left fun _ => .store _ _)).leads (.entering hnew)

theorem inOrder {rest matched : List Uid}
    (h : detour.Taken (.conditions uid frames r (condition :: rest) matched s))
    (hnew : condition ∉ Frame.path (.operation uid :: frames)) :
    detour.Taken (.condition uid condition (.operation uid :: frames) s) := by
  obtain ⟨operation, -, hoperation, ⟨room, depth, hfits, hdepth, hcomes⟩, answers, hturns⟩ := h
  refine ⟨hnew, fun found row hrow => ?_⟩
  cases hrow.operation_eq hoperation
  refine ⟨room, depth, depth + 1, hfits, Nat.lt_succ_of_le hdepth, Nat.succ_le_succ hdepth, ?_⟩
  exact (hcomes.leads (hturns room depth hfits hdepth).leads).starts
    (attempt_starts_runConditions hrow _ _ _)

theorem evaluateRow (h : detour.Taken (.condition uid condition frames s))
    (hrow : detour.script.HasRow uid operation condition row) :
    ∃ room depth, detour.script.Fits room (.condition condition :: frames) ∧
      depth + 1 < (Frame.condition condition :: frames).length ∧
      detour.Comes (detour.engine.evaluateRow (detour.below room) operation row depth
        (Frame.path (.condition condition :: frames))) s := by
  obtain ⟨hnew, hcalled⟩ := h
  obtain ⟨room, depth, deeper, hfits, hdepth, -, hcomes⟩ := hcalled operation row hrow
  obtain ⟨less, rfl, hless⟩ := exists_room (.condition condition) hfits hnew
    hrow.mem_enterable
  refine ⟨less, depth, hless, Nat.succ_lt_succ hdepth, ?_⟩
  have hstarts := (hcomes.starts (starts_attempt hrow deeper _)).leads
    (turns_condition hfits hdepth hrow).leads
  refine (hstarts.starts (.bind_left fun trace => ?_)).leads (.entering hnew)
  exact .bind (.store _ _) fun _ => .pure _

theorem left {reader : Uid} (h : detour.Taken (.condition uid reader frames s))
    (hrow : detour.script.HasRow uid operation reader row)
    (hleft : row.left = some (.internal condition Operand.conditionKey))
    (hevaluates : operation.Evaluates condition)
    (hnew : condition ∉ Frame.path (.condition reader :: frames)) :
    detour.Taken (.condition uid condition (.condition reader :: frames) s) := by
  refine ⟨hnew, fun found nested hnested => ?_⟩
  cases hnested.operation_eq hrow.get_operation
  obtain ⟨room, depth, hfits, hdepth, hcomes⟩ := h.evaluateRow hrow
  refine ⟨room, depth + 1, depth + 1, hfits, hdepth, Nat.le_of_lt hdepth, ?_⟩
  rw [Engine.evaluateRow_eq, hleft] at hcomes
  refine (hcomes.starts (.bind_left fun trace => ?_)).starts
    (attempt_starts_operand hnested hevaluates _)
  split
  · exact .pure _
  · refine .bind (grows_operandOrNull hrow (fun _ hright => ?_) _) fun _ => .pure _
    exact ConditionRow.mem_operands_of_right hright

theorem right {reader : Uid} {left : Json} (h : detour.Taken (.condition uid reader frames s))
    (hrow : detour.script.HasRow uid operation reader row)
    (hoperand : detour.Taken (.operand uid (.condition reader :: frames) row.left s left t))
    (hopen : row.isSettledBy left = false)
    (hright : row.right = some (.internal condition Operand.conditionKey))
    (hevaluates : operation.Evaluates condition)
    (hnew : condition ∉ Frame.path (.condition reader :: frames)) :
    detour.Taken (.condition uid condition (.condition reader :: frames) t) := by
  refine ⟨hnew, fun found nested hnested => ?_⟩
  cases hnested.operation_eq hrow.get_operation
  obtain ⟨room, depth, hfits, hdepth, hcomes⟩ := h.evaluateRow hrow
  obtain ⟨answers, htakes⟩ := hoperand operation hrow.get_operation
  rw [Engine.evaluateRow_eq] at hcomes
  refine ⟨room, depth + 1, depth + 1, hfits, hdepth, Nat.le_of_lt hdepth,
    hcomes.leads (.andThen (htakes room depth hfits hdepth) fun trace hvalue => ?_)⟩
  rw [hvalue, hopen, hright]
  exact (attempt_starts_operand hnested hevaluates _).trans (.bind_left fun _ => .pure _)

theorem missing : detour.Taken (.operand uid frames none s .null s) :=
  fun _ _ => ⟨[], fun _ _ _ _ => .pure rfl⟩

theorem static {value : Json} :
    detour.Taken (.operand uid frames (some (.static value)) s value s) := by
  exact fun _ _ => ⟨[], fun _ _ _ _ _ state hat =>
    ⟨state, ⟨_, Engine.outcome_leaf (.static value) state, rfl⟩, hat⟩⟩

theorem read {owner : Uid} {key : String} {record value : Json}
    (hoperation : detour.script.operations.get? uid = some (.conditional operation))
    (hother : ¬ operation.Evaluates owner) (hrecord : s.get? owner = some record)
    (hfield : record.lookup? key = some value) :
    detour.Taken (.operand uid frames (some (.internal owner key)) s value s) := by
  intro found hfound
  cases hoperation.symm.trans hfound
  refine ⟨[], fun room depth _ _ left state hat => ?_⟩
  have hleaf : detour.engine.operandOrNull (detour.below room) operation
      (some (.internal owner key)) depth (Frame.path frames) = Engine.leaf (.internal owner key) := by
    simp only [Engine.operandOrNull, Engine.operand]
    split
    case isFalse => rfl
    case isTrue hkind =>
      split
      case h_1 => rfl
      case h_2 row hget => exact absurd ⟨hkind, by simp [Table.contains, hget]⟩ hother
  have hnoted : detour.At s left (state.noted (.read owner record)) := hat.noted fun _ => rfl
  refine ⟨_, ⟨.leaf (Operand.internal owner key).text value, ?_, rfl⟩, hnoted⟩
  rw [hleaf, Engine.outcome_leaf]
  simp only [hat.results_eq, hrecord, hfield]

theorem fails (hoperation : detour.script.operations.get? uid = some (.conditional operation))
    (hevaluates : operation.Evaluates condition)
    (h : detour.Taken (.verdict uid condition frames s false t)) :
    detour.Taken (.operand uid frames (some (.internal condition Operand.conditionKey)) s
      (.bool false) t) := by
  obtain ⟨_, row, hrow, ⟨answers, htakes⟩, -⟩ := h
  cases hrow.operation_eq hoperation
  refine fun found hfound => ⟨answers, fun room depth hfits hdepth => ?_⟩
  cases hrow.operation_eq hfound
  rw [Engine.operandOrNull, operand_eq_of_evaluates hrow hevaluates]
  refine (htakes room (depth + 1) hfits hdepth).andThen fun trace htrace => ?_
  rw [htrace.1]
  exact .pure htrace.2

theorem holds (hoperation : detour.script.operations.get? uid = some (.conditional operation))
    (hevaluates : operation.Evaluates condition)
    (h : detour.Taken (.verdict uid condition frames s true t))
    (hacted : detour.Taken (.acted uid condition frames t u)) :
    detour.Taken (.operand uid frames (some (.internal condition Operand.conditionKey)) s
      (.bool true) u) := by
  obtain ⟨_, row, hrow, ⟨answers, htakes⟩, -⟩ := h
  obtain ⟨_, _, hfound, others, hruns⟩ := hacted
  cases hrow.operation_eq hoperation
  cases hfound.operation_eq hoperation
  cases hrow.row_eq hfound
  refine fun found hfound => ⟨answers ++ others, fun room depth hfits hdepth => ?_⟩
  cases hrow.operation_eq hfound
  rw [Engine.operandOrNull, operand_eq_of_evaluates hrow hevaluates]
  refine (htakes room (depth + 1) hfits hdepth).bind fun trace htrace => ?_
  rw [htrace.1]
  exact (hruns room (depth + 1) hfits (Nat.le_of_lt hdepth)).andThen fun _ _ => .pure htrace.2

/-- What a row comes to is stored, and then its work is done if it holds. -/
theorem verdict {holds : Bool} (h : detour.Taken (.condition uid condition frames s))
    (hrow : detour.script.HasRow uid operation condition row)
    (hevaluates : ∃ answers, ∀ room depth,
      detour.script.Fits room (.condition condition :: frames) → depth < frames.length →
      detour.Takes answers (detour.engine.evaluateRow (detour.below room) operation row depth
        (Frame.path (.condition condition :: frames))) s
        (fun trace => trace.value = .bool holds) t) :
    detour.Taken (.verdict uid condition frames s holds (t.insert condition
      (.object [("output", .object [("result", .bool holds)])]))) := by
  obtain ⟨hnew, hcalled⟩ := h
  obtain ⟨answers, hevaluates⟩ := hevaluates
  have htakes (room depth : Nat) (hfits : detour.script.Fits room frames)
      (hdepth : depth < frames.length) :
      detour.Takes answers
        ((detour.below room).condition operation condition depth (Frame.path frames)) s
        (fun trace => trace.holds = holds ∧ trace.value = .bool holds)
        (t.insert condition (.object [("output", .object [("result", .bool holds)])])) := by
    obtain ⟨less, rfl, hless⟩ := exists_room (.condition condition) hfits hnew
      hrow.mem_enterable
    refine (turns_condition hfits hdepth hrow).takes
      ((Takes.entering hnew (hevaluates less depth hless hdepth)).andThen fun trace hvalue => ?_)
    have hholds := Trace.holds_of_value_eq hvalue
    rw [hholds]
    exact (Takes.store _ _).bind fun _ _ => .pure ⟨hholds, hvalue⟩
  refine ⟨operation, row, hrow, ⟨answers, htakes⟩, fun hholds => ?_⟩
  obtain ⟨room, depth, deeper, hfits, hdepth, hdeeper, hcomes⟩ := hcalled operation row hrow
  refine ⟨room, deeper, hfits, hdeeper, hcomes.leads
    (.andThen (htakes room depth hfits hdepth) fun trace htrace => ?_)⟩
  rw [htrace.1, if_pos hholds]
  exact .bind_left fun _ => .pure _

theorem settled {left : Json} (h : detour.Taken (.condition uid condition frames s))
    (hrow : detour.script.HasRow uid operation condition row)
    (hleft : detour.Taken (.operand uid (.condition condition :: frames) row.left s left t))
    (hsettled : row.isSettledBy left) :
    detour.Taken (.verdict uid condition frames s (row.outcome left .null) (t.insert condition
      (.object [("output", .object [("result", .bool (row.outcome left .null))])]))) := by
  obtain ⟨answers, htakes⟩ := hleft operation hrow.get_operation
  refine h.verdict hrow ⟨answers, fun room depth hfits hdepth => ?_⟩
  rw [Engine.evaluateRow_eq]
  refine (htakes room depth hfits (Nat.succ_lt_succ hdepth)).andThen fun trace hvalue => ?_
  subst hvalue
  rw [if_pos hsettled]
  exact .pure (ConditionRow.value_settled hsettled)

theorem compared {left right : Json} (h : detour.Taken (.condition uid condition frames s))
    (hrow : detour.script.HasRow uid operation condition row)
    (hleft : detour.Taken (.operand uid (.condition condition :: frames) row.left s left t))
    (hopen : row.isSettledBy left = false)
    (hright : detour.Taken (.operand uid (.condition condition :: frames) row.right t right u)) :
    detour.Taken (.verdict uid condition frames s (row.outcome left right) (u.insert condition
      (.object [("output", .object [("result", .bool (row.outcome left right))])]))) := by
  obtain ⟨answers, htakes⟩ := hleft operation hrow.get_operation
  obtain ⟨others, htakes'⟩ := hright operation hrow.get_operation
  refine h.verdict hrow ⟨answers ++ others, fun room depth hfits hdepth => ?_⟩
  have hdeep : depth + 1 < (Frame.condition condition :: frames).length :=
    Nat.succ_lt_succ hdepth
  rw [Engine.evaluateRow_eq]
  refine (htakes room depth hfits hdeep).bind fun trace hvalue => ?_
  subst hvalue
  rw [if_neg (by simp [hopen])]
  refine (htakes' room depth hfits hdeep).andThen fun other hvalue => ?_
  subst hvalue
  exact .pure (ConditionRow.value_compared hopen)

theorem nested {work : Uid} (h : detour.Taken (.verdict uid condition frames s true t))
    (hrow : detour.script.HasRow uid operation condition row) (hwork : row.work = some work)
    (hkind : WorkKind.of? work = some .operation) (hnew : work ∉ Frame.path frames) :
    detour.Taken (.operation work frames t) := by
  obtain ⟨_, _, hfound, -, hcomes⟩ := h
  cases hrow.operation_eq hfound.get_operation
  cases hrow.row_eq hfound
  obtain ⟨room, deeper, hfits, hdeeper, hcomes⟩ := hcomes rfl
  refine ⟨hnew, fun called hcalled => ⟨room, deeper, hfits, hdeeper, hcomes.starts ?_⟩⟩
  have hcontains : detour.engine.script.operations.contains work := by
    simp [Table.contains, engine, hcalled]
  simp only [Engine.runAction, hwork, Engine.runWork, hkind, hcontains, if_true]
  exact .bind_left fun _ => .pure _

theorem step {work : Uid} (h : detour.Taken (.verdict uid condition frames s true t))
    (hrow : detour.script.HasRow uid operation condition row) (hwork : row.work = some work)
    (hkind : WorkKind.of? work ≠ some .operation) : detour.Taken (.step work frames t) := by
  obtain ⟨_, _, hfound, -, hcomes⟩ := h
  cases hrow.operation_eq hfound.get_operation
  cases hrow.row_eq hfound
  obtain ⟨room, deeper, hfits, hdeeper, hcomes⟩ := hcomes rfl
  refine ⟨hkind, fun step hstep => hcomes.starts ?_⟩
  have hget : detour.engine.script.steps.get? work = some step := hstep
  simp only [Engine.runAction, hwork, Engine.runWork, hkind, hget, if_false]
  exact .bind_left fun _ => .pure _

theorem idle (hrow : detour.script.HasRow uid operation condition row) (hwork : row.work = none) :
    detour.Taken (.acted uid condition frames t t) := by
  refine ⟨operation, row, hrow, [], fun room depth _ _ => ?_⟩
  simp only [Engine.runAction, hwork]
  exact .pure trivial

theorem answered {work : Uid} (value : Json) (h : detour.Taken (.step work frames t))
    (hrow : detour.script.HasRow uid operation condition row) (hwork : row.work = some work)
    (hcontains : detour.script.steps.contains work) :
    detour.Taken (.acted uid condition frames t (t.insert work value)) := by
  refine ⟨operation, row, hrow, [value], fun room depth _ _ => ?_⟩
  obtain ⟨step, hstep⟩ := Option.isSome_iff_exists.mp hcontains
  have hget : detour.engine.script.steps.get? work = some step := hstep
  simp only [Engine.runAction, hwork, Engine.runWork, h.1, hget, if_false]
  exact (Takes.runStep work step value).andThen fun _ _ => .pure trivial

theorem ran {work : Uid} (hrow : detour.script.HasRow uid operation condition row)
    (hwork : row.work = some work) (hkind : WorkKind.of? work = some .operation)
    (h : detour.Taken (.done work frames t u)) :
    detour.Taken (.acted uid condition frames t u) := by
  obtain ⟨hcontains, answers, htakes⟩ := h
  refine ⟨operation, row, hrow, answers, fun room depth hfits hdepth => ?_⟩
  have hthere : detour.engine.script.operations.contains work := hcontains
  simp only [Engine.runAction, hwork, Engine.runWork, hkind, hthere, if_true]
  exact (htakes room depth hfits hdepth).andThen fun _ _ => .pure trivial

theorem failed {rest matched : List Uid}
    (h : detour.Taken (.conditions uid frames r (condition :: rest) matched s))
    (hverdict : detour.Taken (.verdict uid condition (.operation uid :: frames) s false t)) :
    detour.Taken (.conditions uid frames r rest matched t) := by
  obtain ⟨operation, hnew, hoperation, hcomes, answers, hturns⟩ := h
  obtain ⟨_, row, hrow, ⟨others, htakes⟩, -⟩ := hverdict
  cases hrow.operation_eq hoperation
  refine ⟨operation, hnew, hoperation, hcomes, answers ++ (others ++ []),
    fun room depth hfits hdepth => (hturns room depth hfits hdepth).trans ?_⟩
  simp only [Engine.runConditions, hrow.get_row]
  refine .bind (htakes room depth hfits (Nat.lt_succ_of_le hdepth)) fun trace htrace => ?_
  rw [htrace.1]
  exact .bind (.record _) fun _ _ => .refl

theorem held {rest matched : List Uid}
    (h : detour.Taken (.conditions uid frames r (condition :: rest) matched s))
    (hverdict : detour.Taken (.verdict uid condition (.operation uid :: frames) s true t))
    (hacted : detour.Taken (.acted uid condition (.operation uid :: frames) t u)) :
    detour.Taken (.conditions uid frames r
      (if detour.policy = .firstMatch then [] else rest) (matched ++ [condition]) u) := by
  obtain ⟨operation, hnew, hoperation, hcomes, answers, hturns⟩ := h
  obtain ⟨_, row, hrow, ⟨others, htakes⟩, -⟩ := hverdict
  obtain ⟨_, _, hfound, more, hruns⟩ := hacted
  cases hrow.operation_eq hoperation
  cases hfound.operation_eq hoperation
  cases hrow.row_eq hfound
  refine ⟨operation, hnew, hoperation, hcomes, answers ++ (others ++ (more ++ [])),
    fun room depth hfits hdepth => (hturns room depth hfits hdepth).trans ?_⟩
  simp only [Engine.runConditions, hrow.get_row]
  refine .bind (htakes room depth hfits (Nat.lt_succ_of_le hdepth)) fun trace htrace => ?_
  rw [htrace.1]
  refine .bind (hruns room (depth + 1) hfits (Nat.succ_le_succ hdepth)) fun work _ => ?_
  refine .bind (.record _) fun _ _ => ?_
  change detour.Turns [] (if detour.policy = .firstMatch then _ else _) u _ u
  split <;> exact .refl

theorem ended {matched : List Uid} (h : detour.Taken (.conditions uid frames r [] matched s)) :
    detour.Taken (.done uid frames r (s.insert uid (.object [("output", .object [
      ("matched", .array (matched.map .string)), ("success", .bool true)])]))) := by
  obtain ⟨operation, hnew, hoperation, -, answers, hturns⟩ := h
  refine ⟨by simp [Table.contains, hoperation], answers, fun room depth hfits hdepth => ?_⟩
  obtain ⟨less, rfl, hless⟩ := exists_room (.operation uid) hfits hnew
    (Script.mem_enterable_of_operation hoperation)
  have hbody := (hturns less depth hless hdepth).takes (.pure (P := (· = matched)) rfl)
  rw [List.append_nil] at hbody
  refine (turns_operation hfits hdepth hoperation).takes
    ((Takes.entering hnew hbody).andThen fun found hfound => ?_)
  rw [hfound]
  exact .store _ _

end Taken

/-- Whatever a course comes to, a run comes to with the right answers. -/
theorem Passes.taken {stage : Stage} (h : detour.Passes stage) : detour.Taken stage := by
  induction h with
  | order => exact .order
  | operation _ ih => exact .listed ih
  | next _ _ ih ihdone => exact .next ih ihdone
  | conditions _ hoperation ih => exact .conditions ih hoperation
  | condition _ hnew ih => exact .inOrder ih hnew
  | left _ hrow hleft hevaluates hnew ih => exact .left ih hrow hleft hevaluates hnew
  | right _ hrow _ hopen hright hevaluates hnew ih ihleft =>
    exact .right ih hrow ihleft hopen hright hevaluates hnew
  | missing => exact .missing
  | static => exact .static
  | read hoperation hother hrecord hfield => exact .read hoperation hother hrecord hfield
  | fails hoperation hevaluates _ ih => exact .fails hoperation hevaluates ih
  | holds hoperation hevaluates _ _ ih ihacted => exact .holds hoperation hevaluates ih ihacted
  | settled _ hrow _ hsettled _ ih ihleft => exact .settled ih hrow ihleft hsettled
  | compared _ hrow _ hopen _ _ ih ihleft ihright => exact .compared ih hrow ihleft hopen ihright
  | nested _ hrow hwork hkind hnew ih => exact .nested ih hrow hwork hkind hnew
  | step _ hrow hwork hkind ih => exact .step ih hrow hwork hkind
  | idle _ hrow hwork => exact .idle hrow hwork
  | answered value _ hrow hwork hcontains _ ih => exact .answered value ih hrow hwork hcontains
  | ran hrow hwork hkind _ ih => exact .ran hrow hwork hkind ih
  | failed _ _ ih ihverdict => exact .failed ih ihverdict
  | held _ _ _ ih ihverdict ihacted => exact .held ih ihverdict ihacted
  | ended _ _ ih => exact .ended ih

theorem Comes.exists_run (h : detour.Comes action r) : ∃ answers next,
    (action.outcome next).2.journal <+:
      (detour.engine.executor.executeFrom detour.script detour.given answers).2.journal ∧
    detour.At r [] next := by
  obtain ⟨answers, hleads⟩ := h
  have hstart : detour.At detour.given (answers ++ [])
      { results := detour.given, runners := answers } := ⟨rfl, rfl, by simp⟩
  obtain ⟨next, hprefix, hnext⟩ := hleads [] _ hstart
  have hroom : detour.engine.script.keyCount < detour.script.keyCount + 1 := Nat.lt_succ_self _
  rw [below, Engine.runListedBy_unfold detour.engine Engine.refusing hroom] at hprefix
  exact ⟨answers, next, hprefix, hnext⟩

/-- A step that a course starts is called in a run, from the same results. -/
theorem Passes.exists_call (h : detour.Passes (.step uid frames r)) {step : Step}
    (hstep : detour.script.steps.get? uid = some step) :
    ∃ answers before answer after,
      (detour.engine.executor.executeFrom detour.script detour.given answers).2.journal =
        before ++ .call .default { step with id := uid } answer :: after ∧
      replayed detour.given before = r := by
  obtain ⟨answers, next, ⟨after, hjournal⟩, hnext⟩ := (h.taken.2 step hstep).exists_run
  rw [Engine.outcome_runStep] at hjournal
  simp only [engine, Executor.answering, Executor.runnerFor?, hnext.runners_eq] at hjournal
  exact ⟨answers, next.journal, _, after,
    hjournal.symm.trans (List.append_assoc _ _ _), hnext.replayed_eq⟩

/-- An operation that a course starts is entered in a run, from the same results. -/
theorem Passes.exists_enter (h : detour.Passes (.operation uid frames r))
    (hoperation : detour.script.operations.get? uid = some (.conditional operation)) :
    ∃ answers before after,
      (detour.engine.executor.executeFrom detour.script detour.given answers).2.journal =
        before ++ .enter (.operation uid) :: after ∧
      replayed detour.given before = r := by
  obtain ⟨hnew, hcalled⟩ := h.taken
  obtain ⟨room, depth, hfits, hdepth, hcomes⟩ := hcalled operation hoperation
  obtain ⟨less, rfl, -⟩ := exists_room (.operation uid) hfits hnew
    (Script.mem_enterable_of_operation hoperation)
  have hbody := (hcomes.leads (turns_operation hfits hdepth hoperation).leads).starts
    (.bind_left fun _ => .store _ _)
  obtain ⟨answers, next, hprefix, hnext⟩ := hbody.exists_run
  have hgrows := grows_runConditions hoperation less depth
    (Frame.path (.operation uid :: frames)) operation.order []
  obtain ⟨after, hjournal⟩ := (Run.Starts.entering hnew hgrows next).trans hprefix
  exact ⟨answers, next.journal, after,
    hjournal.symm.trans (List.append_assoc _ _ _), hnext.replayed_eq⟩

end Detour

end Workflow
