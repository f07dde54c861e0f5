import Workflow.Proofs.Run.Nesting

/-!
Two runs side by side. As long as both do the same, their states have in common what a coupling
says; the first one may end early, with an error that the second one does not have. Main statement:
engines that find, answer and read alike run side by side. Where only the second one finds something
they do so as well, if the coupling lets the first one end for the lack of it.
-/

set_option autoImplicit false

namespace Workflow

/-- The action only adds to the journal. -/
def Run.Grows {σ α : Type} (action : Run σ α) : Prop :=
  ∀ state, state.journal <+: (action.outcome state).2.journal

namespace Run.Grows

variable {σ α β : Type}

theorem pure (a : α) : (Pure.pure a : Run σ α).Grows := fun _ => List.prefix_refl _

theorem bind {action : Run σ α} {f : α → Run σ β} (h : action.Grows) (hf : ∀ a, (f a).Grows) :
    (action >>= f).Grows := by
  intro state
  have hfirst := h state
  rw [Run.outcome_bind]
  rcases haction : action.outcome state with ⟨error | a, after⟩
  · simpa [haction] using hfirst
  · rw [haction] at hfirst
    exact hfirst.trans (hf a after)

theorem note (event : Event) : (Run.note event : Run σ Unit).Grows :=
  fun _ => List.prefix_append _ _

theorem store (uid : Uid) (value : Json) : (Run.store uid value : Run σ Unit).Grows :=
  fun _ => List.prefix_append _ _

theorem record (record : TraceRecord) : (Run.record record : Run σ Unit).Grows :=
  fun _ => List.prefix_refl _

end Run.Grows

/-- What the states of two runs have in common. -/
structure Coupling (σ : Type) where
  /-- As long as both runs do the same. -/
  Abreast : RunState σ → RunState σ → Prop
  /-- From when the first run alone has ended with an error. -/
  Parted : RunError → RunState σ → RunState σ → Prop
  noted {s t : RunState σ} (event : Event) : Abreast s t → Abreast (s.noted event) (t.noted event)
  stored {s t : RunState σ} (uid : Uid) (value : Json) :
    Abreast s t → Abreast (s.stored uid value) (t.stored uid value)
  recorded {s t : RunState σ} (record : TraceRecord) :
    Abreast s t → Abreast (s.recorded record) (t.recorded record)
  grown {error : RunError} {s t t' : RunState σ} :
    Parted error s t → t.journal <+: t'.journal → Parted error s t'

namespace Coupling

variable {σ α β : Type}

inductive Ends (C : Coupling σ) :
    Except RunError α × RunState σ → Except RunError α × RunState σ → Prop
  | alike {ending : Except RunError α} {s t : RunState σ} :
      C.Abreast s t → Ends C (ending, s) (ending, t)
  | parted {error : RunError} {ending : Except RunError α} {s t : RunState σ} :
      C.Parted error s t → Ends C (.error error, s) (ending, t)

theorem Ends.of_error {C : Coupling σ} {x y : Except RunError α × RunState σ} {error : RunError}
    (herror : x.1 = .error error) (hparted : C.Parted error x.2 y.2) : C.Ends x y := by
  obtain ⟨ending, s⟩ := x
  cases herror
  exact .parted hparted

def Admits (C : Coupling σ) (error : RunError) : Prop :=
  ∀ s t : RunState σ, C.Abreast s t → C.Parted error s t

/-- Started abreast, the actions end in one of these ways. -/
structure Pairs (C : Coupling σ) (left right : Run σ α) : Prop where
  grows : right.Grows
  ends {s t : RunState σ} : C.Abreast s t → C.Ends (left.outcome s) (right.outcome t)

namespace Pairs

variable {C : Coupling σ} {left right : Run σ α} {f g : α → Run σ β}

theorem pure (a : α) : C.Pairs (Pure.pure a) (Pure.pure a) where
  grows := .pure a
  ends h := .alike h

theorem throw (error : RunError) : C.Pairs (throw error : Run σ α) (throw error) where
  grows _ := List.prefix_refl _
  ends h := .alike h

theorem throw_left {error : RunError} (hadmits : C.Admits error) (hgrows : right.Grows) :
    C.Pairs (MonadExcept.throw error) right where
  grows := hgrows
  ends {s t} h := .parted (C.grown (hadmits s t h) (hgrows t))

theorem bind (h : C.Pairs left right) (hf : ∀ a, C.Pairs (f a) (g a)) :
    C.Pairs (left >>= f) (right >>= g) where
  grows := h.grows.bind fun a => (hf a).grows
  ends {s t} hst := by
    have hends := h.ends hst
    rw [Run.outcome_bind, Run.outcome_bind]
    generalize left.outcome s = x at hends ⊢
    generalize right.outcome t = y at hends ⊢
    cases hends with
    | @alike ending s t habreast =>
      cases ending with
      | error error => exact .alike habreast
      | ok a => exact (hf a).ends habreast
    | @parted error ending s t hparted =>
      cases ending with
      | error _ => exact .parted hparted
      | ok a =>
        exact .parted (C.grown hparted ((hf a).grows t))

theorem throw_bind (error : RunError) :
    C.Pairs ((MonadExcept.throw error : Run σ α) >>= f) (MonadExcept.throw error >>= g) where
  grows _ := List.prefix_refl _
  ends h := .alike h

theorem note (event : Event) : C.Pairs (Run.note event) (Run.note event) where
  grows := .note event
  ends h := .alike (C.noted event h)

theorem store (uid : Uid) (value : Json) : C.Pairs (Run.store uid value) (Run.store uid value) where
  grows := .store uid value
  ends h := .alike (C.stored uid value h)

theorem record (record : TraceRecord) : C.Pairs (Run.record record) (Run.record record) where
  grows := .record record
  ends h := .alike (C.recorded record h)

theorem entering {frame : Frame} {path : List Uid} {f g : List Uid → Run σ α}
    (h : C.Pairs (f (frame.uid :: path)) (g (frame.uid :: path))) :
    C.Pairs (Run.entering frame path f) (Run.entering frame path g) := by
  unfold Run.entering
  split
  · exact .throw _
  · exact .bind (.note _) fun _ => .bind h fun a => .bind (.note _) fun _ => .pure a

end Pairs

theorem parametric_pairs (C : Coupling σ) :
    Run.Parametric fun (α : Type) (left right : Run σ α) => C.Pairs left right where
  pure := .pure
  throw := .throw
  bind := .bind

def equal (Parted : RunError → RunState σ → RunState σ → Prop)
    (hgrown : ∀ {error : RunError} {s t t' : RunState σ}, Parted error s t →
      t.journal <+: t'.journal → Parted error s t') : Coupling σ where
  Abreast := Eq
  Parted := Parted
  noted _ h := h ▸ rfl
  stored _ _ h := h ▸ rfl
  recorded _ h := h ▸ rfl
  grown := hgrown

def same : Coupling σ := equal (fun _ _ _ => False) fun h _ => h

variable {Parted : RunError → RunState σ → RunState σ → Prop}
  {hgrown : ∀ {error : RunError} {s t t' : RunState σ}, Parted error s t →
    t.journal <+: t'.journal → Parted error s t'}

theorem Pairs.refl {action : Run σ α} (hgrows : action.Grows) :
    (equal Parted hgrown).Pairs action action where
  grows := hgrows
  ends {s t} h := by
    cases h
    exact .alike rfl

theorem Ends.eq_or_parted {C : Coupling σ} (hC : ∀ s t, C.Abreast s t → s = t)
    {x y : Except RunError α × RunState σ} (h : C.Ends x y) :
    x = y ∨ ∃ error, x.1 = .error error ∧ C.Parted error x.2 y.2 := by
  cases h with
  | @alike ending s t habreast => exact .inl (congrArg (Prod.mk ending) (hC s t habreast))
  | parted hparted => exact .inr ⟨_, rfl, hparted⟩

def Answers {σ : Type} (C : Coupling σ) (runner : StepRunner σ) : Prop :=
  ∀ (slot : RunnerSlot) (step : Step) (s t : RunState σ), C.Abreast s t →
    (runner step s.runners).1 = (runner step t.runners).1 ∧ ∀ answer,
      C.Abreast (s.called slot step answer (runner step s.runners).2)
        (t.called slot step answer (runner step t.runners).2)

def Sees {σ : Type} (C : Coupling σ) (owner : Uid) : Prop :=
  ∀ s t : RunState σ, C.Abreast s t → s.results.get? owner = t.results.get? owner

end Coupling

inductive RunError.Lacks (uid : Uid) : RunError → Prop
  | operation : Lacks uid (.missingOperation uid)
  | work (referencedBy : Uid) : Lacks uid (.missingWork uid referencedBy)

/-- What two engines find under an identifier. Where only the second one finds something, the first
run may end for the lack of it. -/
inductive Coupling.Finds {σ α β : Type} (C : Coupling σ) (uid : Uid) (R : α → β → Prop) :
    Option α → Option β → Prop
  | neither : Finds C uid R none none
  | both {a : α} {b : β} : R a b → Finds C uid R (some a) (some b)
  | second {b : β} : (∀ error : RunError, error.Lacks uid → C.Admits error) →
      Finds C uid R none (some b)

theorem Coupling.Finds.refl {σ α : Type} {C : Coupling σ} {uid : Uid} {R : α → α → Prop}
    (h : ∀ a, R a a) (found : Option α) : C.Finds uid R found found := by
  cases found with
  | none => exact .neither
  | some a => exact .both (h a)

inductive Operation.Alike : Operation → Operation → Prop
  | conditional {left right : Conditional} (conditions : left.conditions = right.conditions)
      (order : left.order = right.order) : Alike (.conditional left) (.conditional right)
  | unsupported {left right : Unsupported} (type : left.type = right.type) :
      Alike (.unsupported left) (.unsupported right)

theorem Operation.Alike.refl : ∀ operation : Operation, operation.Alike operation
  | .conditional _ => .conditional rfl rfl
  | .unsupported _ => .unsupported rfl

theorem Coupling.Finds.imp {σ α β : Type} {C : Coupling σ} {uid : Uid} {R S : α → β → Prop}
    {a : Option α} {b : Option β} (h : C.Finds uid R a b) (hRS : ∀ a b, R a b → S a b) :
    C.Finds uid S a b := by
  cases h with
  | neither => exact .neither
  | both hR => exact .both (hRS _ _ hR)
  | second hadmits => exact .second hadmits

namespace Engine

variable {σ : Type}

/-- Engines that do alike where a run depends on them: in the operations of a domain, which has all
that these run. -/
structure Coupled (C : Coupling σ) (domain : Uid → Prop) (left right : Engine σ) : Prop where
  policy : left.executor.policy = right.executor.policy
  checkDepth (uid : Uid) (depth : Nat) :
    C.Pairs (left.checkDepth uid depth) (right.checkDepth uid depth)
  operation (uid : Uid) : C.Finds uid Operation.Alike (left.script.operations.get? uid)
    (right.script.operations.get? uid)
  step (uid : Uid) : C.Finds uid (fun l r => C.Pairs (left.runStep uid l) (right.runStep uid r))
    (left.script.steps.get? uid) (right.script.steps.get? uid)
  leaf {uid condition : Uid} {operation : Conditional} {row : ConditionRow} {operand : Operand} :
    domain uid → left.script.HasRow uid operation condition row → operand ∈ row.operands →
    C.Pairs (leaf operand) (leaf operand)
  work {uid condition work : Uid} {operation : Conditional} {row : ConditionRow} :
    domain uid → left.script.HasRow uid operation condition row → row.work = some work →
    left.script.operations.contains work → domain work

structure PairsBelow (C : Coupling σ) (domain : Uid → Prop) (left right : Engine σ)
    (lower upper : Below σ) : Prop where
  operation {uid : Uid} (depth : Nat) (path : List Uid) : domain uid →
    left.script.operations.contains uid →
    C.Pairs (lower.operation uid depth path) (upper.operation uid depth path)
  grows {uid : Uid} (depth : Nat) (path : List Uid) : right.script.operations.contains uid →
    (upper.operation uid depth path).Grows
  condition {uid condition : Uid} {l r : Conditional} {row : ConditionRow} (depth : Nat)
      (path : List Uid) : domain uid → left.script.HasRow uid l condition row →
    l.conditions = r.conditions →
    C.Pairs (lower.condition l condition depth path) (upper.condition r condition depth path)

def refusing : Below σ where
  operation := fun uid _ _ => throw (.cyclicWork uid)
  condition := fun _ condition _ _ => throw (.cyclicWork condition)

theorem grows_checkDepth (engine : Engine σ) (uid : Uid) (depth : Nat) :
    (engine.checkDepth uid depth).Grows := by
  intro state
  unfold checkDepth
  split <;> exact List.prefix_refl _

theorem grows_leaf (operand : Operand) : (leaf operand : Run σ Trace).Grows := by
  intro state
  rw [outcome_leaf]
  cases operand with
  | static value => exact List.prefix_refl _
  | internal owner key =>
    cases hrecord : state.results.get? owner with
    | none => simp only [hrecord]; exact List.prefix_refl _
    | some record =>
      simp only [hrecord]
      cases record.lookup? key <;> exact List.prefix_append _ _

theorem grows_runStep (engine : Engine σ) (uid : Uid) (step : Step) :
    (engine.runStep uid step).Grows := by
  intro state
  rw [outcome_runStep]
  cases engine.executor.runnerFor? step.kind with
  | none => exact List.prefix_refl _
  | some found =>
    obtain ⟨slot, runner⟩ := found
    rcases hanswer : runner { step with id := uid } state.runners with ⟨cause | output, runners⟩ <;>
      simp only [hanswer]
    · exact List.prefix_append _ _
    · exact (List.prefix_append _ _).trans (List.prefix_append _ _)

namespace Coupled

variable {C : Coupling σ} {domain : Uid → Prop} {left right : Engine σ} {lower upper : Below σ}
  {uid condition : Uid} {l r : Conditional} {row : ConditionRow}

theorem guarded (h : Coupled C domain left right) {error : RunError} (hlacks : error.Lacks uid)
    {first second : Run σ Unit}
    (hpairs : left.script.operations.contains uid → C.Pairs first second)
    (hgrows : right.script.operations.contains uid → second.Grows) :
    C.Pairs (if left.script.operations.contains uid then first else throw error)
      (if right.script.operations.contains uid then second else throw error) := by
  have hfinds := h.operation uid
  unfold Table.contains at hpairs hgrows ⊢
  generalize left.script.operations.get? uid = x at hfinds hpairs ⊢
  generalize right.script.operations.get? uid = y at hfinds hgrows ⊢
  cases hfinds with
  | neither => exact .throw error
  | both => exact hpairs rfl
  | second hadmits => exact .throw_left (hadmits error hlacks) (hgrows rfl)

theorem runWork (h : Coupled C domain left right)
    (hbelow : PairsBelow C domain left right lower upper) (hdomain : domain uid)
    (hrow : left.script.HasRow uid l condition row) {work : Uid} (hwork : row.work = some work)
    (referencedBy : Uid) (depth : Nat) (path : List Uid) :
    C.Pairs (left.runWork lower work referencedBy depth path)
      (right.runWork upper work referencedBy depth path) := by
  unfold Engine.runWork
  split
  · exact h.guarded (.work referencedBy)
      (fun hcontains =>
        hbelow.operation depth path (h.work hdomain hrow hwork hcontains) hcontains)
      (hbelow.grows depth path)
  · have hstep := h.step work
    generalize left.script.steps.get? work = x at hstep ⊢
    generalize right.script.steps.get? work = y at hstep ⊢
    cases hstep with
    | neither => exact .throw _
    | both hruns => exact hruns
    | second hadmits =>
      exact .throw_left (hadmits _ (.work referencedBy)) (grows_runStep right work _)

theorem runAction (h : Coupled C domain left right)
    (hbelow : PairsBelow C domain left right lower upper) (hdomain : domain uid)
    (hrow : left.script.HasRow uid l condition row) (referencedBy : Uid) (depth : Nat)
    (path : List Uid) :
    C.Pairs (left.runAction lower row referencedBy depth path)
      (right.runAction upper row referencedBy depth path) :=
  C.parametric_pairs.runAction right upper referencedBy fun _ hwork =>
    h.runWork hbelow hdomain hrow hwork referencedBy depth path

theorem evaluateRow (h : Coupled C domain left right)
    (hbelow : PairsBelow C domain left right lower upper) (hdomain : domain uid)
    (hrow : left.script.HasRow uid l condition row) (hsame : l.conditions = r.conditions)
    (depth : Nat) (path : List Uid) :
    C.Pairs (left.evaluateRow lower l row depth path)
      (right.evaluateRow upper r row depth path) := by
  refine C.parametric_pairs.evaluateRow right upper r fun operand hmem => ?_
  refine C.parametric_pairs.operand right upper hsame (h.leaf hdomain hrow hmem)
    fun owner nested _ _ hnested => ?_
  have hrow' : left.script.HasRow uid l owner nested := ⟨hrow.get_operation, hnested⟩
  exact ⟨hbelow.condition _ _ hdomain hrow' hsame, h.runAction hbelow hdomain hrow' owner _ path⟩

theorem evaluate (h : Coupled C domain left right)
    (hbelow : PairsBelow C domain left right lower upper) (hdomain : domain uid)
    (hrow : left.script.HasRow uid l condition row) (hsame : l.conditions = r.conditions)
    (depth : Nat) (path : List Uid) :
    C.Pairs (left.evaluate lower l condition depth path)
      (right.evaluate upper r condition depth path) := by
  have hright : r.conditions.get? condition = some row := hsame ▸ hrow.get_row
  simp only [Engine.evaluate, Engine.findCondition, hrow.get_row, hright, bind_assoc, pure_bind]
  refine .bind (.note _) fun _ => .bind (h.checkDepth _ _) fun _ => ?_
  refine .bind (.entering (h.evaluateRow hbelow hdomain hrow hsame _ _)) fun trace => ?_
  exact .bind (.store _ _) fun _ => .pure _

theorem runConditions (h : Coupled C domain left right)
    (hbelow : PairsBelow C domain left right lower upper) (hdomain : domain uid)
    (hoperation : left.script.operations.get? uid = some (.conditional l))
    (hsame : l.conditions = r.conditions) (depth : Nat) (path conditions matched : List Uid) :
    C.Pairs (left.runConditions lower uid l depth path conditions matched)
      (right.runConditions upper uid r depth path conditions matched) := by
  refine C.parametric_pairs.runConditions right upper h.policy hsame uid .record
    (fun condition row hfound => ?_) conditions matched
  have hrow : left.script.HasRow uid l condition row := ⟨hoperation, hfound⟩
  exact ⟨hbelow.condition _ _ hdomain hrow hsame, h.runAction hbelow hdomain hrow condition _ path⟩

theorem runOperation (h : Coupled C domain left right)
    (hbelow : PairsBelow C domain left right lower upper) (hdomain : domain uid)
    (hcontains : left.script.operations.contains uid) (depth : Nat) (path : List Uid) :
    C.Pairs (left.runOperation lower uid depth path) (right.runOperation upper uid depth path) := by
  simp only [Engine.runOperation, Engine.findOperation, bind_assoc]
  refine .bind (.note _) fun _ => .bind (h.checkDepth _ _) fun _ => ?_
  have hfinds := h.operation uid
  generalize hleft : left.script.operations.get? uid = x at hfinds ⊢
  generalize right.script.operations.get? uid = y at hfinds ⊢
  cases hfinds with
  | neither | second => simp [Table.contains, hleft] at hcontains
  | both halike =>
    cases halike with
    | unsupported htype =>
      simp only [htype]
      exact .throw_bind _
    | conditional hsame horder =>
      simp only [pure_bind, ← horder]
      refine .bind (.entering ?_) fun matched => .store _ _
      exact h.runConditions hbelow hdomain hleft hsame _ _ _ _

end Coupled

theorem runStep_congr {executor : Executor σ} {script changed : Script} {uid : Uid} {l r : Step}
    (h : ({ l with id := uid } : Step) = { r with id := uid }) :
    runStep ⟨executor, script⟩ uid l = runStep ⟨executor, changed⟩ uid r :=
  calc runStep ⟨executor, script⟩ uid l
    _ = runStep ⟨executor, script⟩ uid { l with id := uid } := rfl
    _ = runStep ⟨executor, script⟩ uid { r with id := uid } := by rw [h]
    _ = runStep ⟨executor, changed⟩ uid r := rfl

theorem coupled_equal {Parted : RunError → RunState σ → RunState σ → Prop}
    {hgrown : ∀ {error : RunError} {s t t' : RunState σ}, Parted error s t →
      t.journal <+: t'.journal → Parted error s t'}
    (executor : Executor σ) {script changed : Script}
    (hoperations : ∀ uid, (Coupling.equal Parted hgrown).Finds uid Operation.Alike
      (script.operations.get? uid) (changed.operations.get? uid))
    (hsteps : ∀ uid, (Coupling.equal Parted hgrown).Finds uid
      (fun l r => ({ l with id := uid } : Step) = { r with id := uid })
      (script.steps.get? uid) (changed.steps.get? uid)) :
    Coupled (.equal Parted hgrown) (fun _ => True) ⟨executor, script⟩ ⟨executor, changed⟩ where
  policy := rfl
  checkDepth uid depth := .refl (grows_checkDepth ⟨executor, changed⟩ uid depth)
  operation := hoperations
  step uid := (hsteps uid).imp fun l r hsame => by
    rw [runStep_congr hsame]
    exact .refl (grows_runStep _ uid r)
  leaf _ _ _ := .refl (grows_leaf _)
  work _ _ _ _ := trivial

theorem coupled_self (engine : Engine σ) : Coupled .same (fun _ => True) engine engine :=
  coupled_equal engine.executor (fun _ => .refl Operation.Alike.refl _) fun uid => by
    cases engine.script.steps.get? uid with
    | none => exact .neither
    | some step => exact .both rfl

theorem pairsBelow_self (engine : Engine σ) (room : Nat) :
    PairsBelow .same (fun _ => True) engine engine (engine.unfold refusing room)
      (engine.unfold refusing room) := by
  have h := engine.coupled_self
  induction room with
  | zero =>
    exact ⟨fun _ _ _ _ => .throw _, fun _ _ _ _ => List.prefix_refl _, fun _ _ _ _ _ => .throw _⟩
  | succ room ih =>
    exact ⟨fun depth path _ hcontains => h.runOperation ih trivial hcontains depth path,
      fun depth path hcontains => (h.runOperation ih trivial hcontains depth path).grows,
      fun depth path _ hrow hsame => h.evaluate ih trivial hrow hsame depth path⟩

namespace Coupled

variable {C : Coupling σ} {domain : Uid → Prop} {left right : Engine σ} {lower upper : Below σ}

theorem unfold (h : Coupled C domain left right) (room : Nat) :
    PairsBelow C domain left right (left.unfold refusing room) (right.unfold refusing room) := by
  induction room with
  | zero =>
    exact ⟨fun _ _ _ _ => .throw _, fun _ _ _ _ => List.prefix_refl _, fun _ _ _ _ _ => .throw _⟩
  | succ room ih =>
    exact ⟨fun depth path hdomain hcontains => h.runOperation ih hdomain hcontains depth path,
      (right.pairsBelow_self (room + 1)).grows,
      fun depth path hdomain hrow hsame => h.evaluate ih hdomain hrow hsame depth path⟩

theorem runListedBy (h : Coupled C domain left right)
    (hbelow : PairsBelow C domain left right lower upper) (uids : List Uid)
    (hdomain : ∀ uid ∈ uids, domain uid) :
    C.Pairs (left.runListedBy lower uids) (right.runListedBy upper uids) := by
  induction uids with
  | nil => exact .pure _
  | cons uid uids ih =>
    have hrest := ih fun u hu => hdomain u (List.mem_cons_of_mem _ hu)
    refine .bind ?_ fun _ => hrest
    exact h.guarded .operation (hbelow.operation 0 [] (hdomain uid List.mem_cons_self))
      (hbelow.grows 0 [])

theorem runAll (h : Coupled C domain left right) (uids : List Uid)
    (hdomain : ∀ uid ∈ uids, domain uid) : C.Pairs (left.runAll uids) (right.runAll uids) := by
  -- The scripts may have different keys, so each run is taken with room for the keys of both.
  have hleft : left.script.keyCount < left.script.keyCount + right.script.keyCount + 1 := by omega
  have hright : right.script.keyCount < left.script.keyCount + right.script.keyCount + 1 := by omega
  rw [← left.runListedBy_unfold refusing hleft, ← right.runListedBy_unfold refusing hright]
  exact h.runListedBy (h.unfold _) uids hdomain

/-- Runs of scripts with the same order end as the coupling says, started abreast. -/
theorem executeFrom_ends {executor other : Executor σ} {script changed : Script}
    (h : Coupled C (fun _ => True) ⟨executor, script⟩ ⟨other, changed⟩)
    (horder : script.order = changed.order) (results : Table Json) (runners others : σ)
    (habreast : C.Abreast { results, runners } { results, runners := others }) :
    C.Ends (executor.executeFrom script results runners)
      (other.executeFrom changed results others) := by
  rw [executor.executeFrom_eq_outcome, other.executeFrom_eq_outcome, ← horder]
  exact (h.runAll script.order.uids fun _ _ => trivial).ends habreast

end Coupled

variable {C : Coupling σ} {left right : Engine σ}

theorem pairs_checkDepth_of_eq (h : left.executor.maxDepth = right.executor.maxDepth) (uid : Uid)
    (depth : Nat) : C.Pairs (left.checkDepth uid depth) (right.checkDepth uid depth) := by
  unfold checkDepth
  rw [h]
  split
  · exact .throw _
  · exact .pure _

theorem pairs_leaf {operand : Operand} (h : ∀ owner, operand.owner? = some owner → C.Sees owner) :
    C.Pairs (leaf operand) (leaf operand) := by
  refine ⟨grows_leaf operand, fun {s t} habreast => ?_⟩
  rw [outcome_leaf, outcome_leaf]
  cases operand with
  | static value => exact .alike habreast
  | internal owner key =>
    have hsees := h owner rfl s t habreast
    cases hrecord : t.results.get? owner with
    | none => simp only [hsees, hrecord]; exact .alike habreast
    | some record =>
      simp only [hsees, hrecord]
      cases record.lookup? key <;> exact .alike (C.noted _ habreast)

theorem pairs_runStep {uid : Uid} {step : Step}
    (hrunner : left.executor.runnerFor? step.kind = right.executor.runnerFor? step.kind)
    (hanswers : ∀ slot runner, left.executor.runnerFor? step.kind = some (slot, runner) →
      C.Answers runner) : C.Pairs (left.runStep uid step) (right.runStep uid step) := by
  refine ⟨right.grows_runStep uid step, fun {s t} habreast => ?_⟩
  rw [outcome_runStep, outcome_runStep, ← hrunner]
  cases hfound : left.executor.runnerFor? step.kind with
  | none => exact .alike habreast
  | some found =>
    obtain ⟨slot, runner⟩ := found
    obtain ⟨hanswer, hcalled⟩ :=
      hanswers slot runner hfound slot { step with id := uid } s t habreast
    rcases hleft : runner { step with id := uid } s.runners with ⟨answer, runners⟩
    rcases hright : runner { step with id := uid } t.runners with ⟨answer', runners'⟩
    simp only [hleft, hright] at hanswer hcalled ⊢
    subst hanswer
    cases answer with
    | error cause => exact .alike (hcalled _)
    | ok output => exact .alike (C.stored _ _ (hcalled _))

theorem coupled_of_steps {domain : Uid → Prop}
    (hoperations : left.script.operations = right.script.operations)
    (hsteps : left.script.steps = right.script.steps)
    (hpolicy : left.executor.policy = right.executor.policy)
    (hruns : ∀ uid step, C.Pairs (left.runStep uid step) (right.runStep uid step))
    (hdepth : ∀ uid depth, C.Pairs (left.checkDepth uid depth) (right.checkDepth uid depth))
    (hreads : ∀ uid condition operation row owner, domain uid →
      left.script.HasRow uid operation condition row → owner ∈ row.owners → C.Sees owner)
    (hwork : ∀ uid condition operation row work, domain uid →
      left.script.HasRow uid operation condition row → row.work = some work →
      left.script.operations.contains work → domain work) :
    Coupled C domain left right where
  policy := hpolicy
  checkDepth := hdepth
  operation uid := by
    rw [← hoperations]
    exact .refl Operation.Alike.refl _
  step uid := by
    rw [← hsteps]
    exact .refl (hruns uid) _
  leaf hdomain hrow hmem := pairs_leaf fun owner howner =>
    hreads _ _ _ _ owner hdomain hrow (List.mem_filterMap.mpr ⟨_, hmem, howner⟩)
  work := hwork _ _ _ _ _

theorem coupled_of_tables {domain : Uid → Prop}
    (hoperations : left.script.operations = right.script.operations)
    (hsteps : left.script.steps = right.script.steps)
    (hpolicy : left.executor.policy = right.executor.policy)
    (hrunners : left.executor.runnerFor? = right.executor.runnerFor?)
    (hanswers : ∀ kind slot runner, left.executor.runnerFor? kind = some (slot, runner) →
      C.Answers runner)
    (hdepth : ∀ uid depth, C.Pairs (left.checkDepth uid depth) (right.checkDepth uid depth))
    (hreads : ∀ uid condition operation row owner, domain uid →
      left.script.HasRow uid operation condition row → owner ∈ row.owners → C.Sees owner)
    (hwork : ∀ uid condition operation row work, domain uid →
      left.script.HasRow uid operation condition row → row.work = some work →
      left.script.operations.contains work → domain work) :
    Coupled C domain left right :=
  coupled_of_steps hoperations hsteps hpolicy
    (fun _ _ => pairs_runStep (congrFun hrunners _) fun _ _ => hanswers _ _ _) hdepth hreads hwork

end Engine

end Workflow
