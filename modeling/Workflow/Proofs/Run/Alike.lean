import Workflow.Proofs.Run.Outcome

set_option autoImplicit false

namespace Workflow

def Event.isEffect : Event → Bool
  | .call .. | .store .. => true
  | _ => false

def Event.called? : Event → Option Step
  | .call _ step _ => some step
  | _ => none

structure Sight (σ : Type) where
  results : Table Json
  effects : List Event
  runners : σ

namespace RunState

variable {σ : Type}

def sight (state : RunState σ) : Sight σ where
  results := state.results
  effects := state.journal.filter Event.isEffect
  runners := state.runners

theorem sight_noted {event : Event} (h : event.isEffect = false) (state : RunState σ) :
    (state.noted event).sight = state.sight := by
  simp [sight, noted, h]

@[simp] theorem sight_recorded (state : RunState σ) (record : TraceRecord) :
    (state.recorded record).sight = state.sight := rfl

theorem sight_stored (state : RunState σ) (uid : Uid) (value : Json) :
    (state.stored uid value).sight =
      ⟨state.sight.results.insert uid value, state.sight.effects ++ [.store uid value],
        state.sight.runners⟩ := by
  simp [sight, stored, noted, Event.isEffect]

theorem sight_called (state : RunState σ) (slot : RunnerSlot) (step : Step)
    (answer : Except String Json) (runners : σ) :
    (state.called slot step answer runners).sight =
      ⟨state.sight.results, state.sight.effects ++ [.call slot step answer], runners⟩ := by
  simp [sight, called, noted, Event.isEffect]

end RunState

namespace Run

variable {σ α β γ δ : Type}

inductive Alike (V : α → β → Prop) :
    Except RunError α × RunState σ → Except RunError β × RunState σ → Prop where
  | ok {a : α} {b : β} {left right : RunState σ} (value : V a b)
      (sight : left.sight = right.sight) : Alike V (.ok a, left) (.ok b, right)
  | error {error : RunError} {left right : RunState σ} (sight : left.sight = right.sight) :
      Alike V (.error error, left) (.error error, right)

theorem Alike.eq {V : PUnit → PUnit → Prop} {x y : Except RunError PUnit × RunState σ}
    (h : Alike V x y) : x.1 = y.1 ∧ x.2.sight = y.2.sight := by
  cases h with
  | ok _ hsight => exact ⟨rfl, hsight⟩
  | error hsight => exact ⟨rfl, hsight⟩

/-- From states that look alike both actions come to ends that look alike. -/
def Matches (left : Run σ α) (right : Run σ β) (V : α → β → Prop) : Prop :=
  ∀ s t : RunState σ, s.sight = t.sight → Alike V (left.outcome s) (right.outcome t)

namespace Matches

variable {left : Run σ α} {right : Run σ β} {V : α → β → Prop}

theorem pure {a : α} {b : β} (h : V a b) :
    Matches (Pure.pure a : Run σ α) (Pure.pure b : Run σ β) V :=
  fun _ _ hst => .ok h hst

theorem bind {f : α → Run σ γ} {g : β → Run σ δ} {W : γ → δ → Prop} (h : Matches left right V)
    (hf : ∀ a b, V a b → Matches (f a) (g b) W) : Matches (left >>= f) (right >>= g) W := by
  intro s t hst
  rw [outcome_bind, outcome_bind]
  have hends := h s t hst
  generalize left.outcome s = x at hends
  generalize right.outcome t = y at hends
  cases hends with
  | ok hvalue hsight => exact hf _ _ hvalue _ _ hsight
  | error hsight => exact .error hsight

theorem before_pure {c : γ} {W : γ → β → Prop} (h : Matches left right V)
    (hW : ∀ b, W c b) : Matches (left >>= fun _ => Pure.pure c) right W := by
  intro s t hst
  rw [outcome_bind]
  have hends := h s t hst
  generalize left.outcome s = x at hends ⊢
  generalize right.outcome t = y at hends ⊢
  cases hends with
  | ok _ hsight => exact .ok (hW _) hsight
  | error hsight => exact .error hsight

theorem after {a : α} {f : α → Run σ γ} {W : γ → β → Prop}
    (hquiet : ∀ s, ∃ s', left.outcome s = (.ok a, s') ∧ s'.sight = s.sight)
    (h : Matches (f a) right W) : Matches (left >>= f) right W := by
  intro s t hst
  obtain ⟨s', heq, hsight⟩ := hquiet s
  rw [outcome_bind_ok heq]
  exact h s' t (hsight.trans hst)

theorem after_record {record : TraceRecord} {f : Unit → Run σ γ} {W : γ → β → Prop}
    (h : Matches (f ()) right W) : Matches (Run.record record >>= f) right W :=
  after (fun s => ⟨_, outcome_record record s, s.sight_recorded record⟩) h

theorem store (uid : Uid) (value : Json) :
    Matches (Run.store uid value : Run σ Unit) (Run.store uid value) fun _ _ => True := by
  intro s t hst
  rw [outcome_store, outcome_store]
  exact .ok trivial (by rw [s.sight_stored, t.sight_stored, hst])

theorem entering {frame : Frame} {path : List Uid} {body : List Uid → Run σ α}
    (hnew : frame.uid ∉ path) (h : Matches (body (frame.uid :: path)) right V) :
    Matches (Run.entering frame path body) right V := by
  intro s t hst
  rw [outcome_entering hnew]
  have hends := h (s.noted (.enter frame)) t ((s.sight_noted rfl).trans hst)
  generalize (body (frame.uid :: path)).outcome (s.noted (.enter frame)) = x at hends ⊢
  generalize right.outcome t = y at hends ⊢
  cases hends with
  | ok hvalue hsight => exact .ok hvalue ((RunState.sight_noted rfl _).trans hsight)
  | error hsight => exact .error hsight

end Matches

end Run

end Workflow
