import Workflow.Proofs.Run.Outcome

set_option autoImplicit false

namespace Workflow

variable {σ τ : Type}

structure Run.Parametric (R : (α : Type) → Run σ α → Run τ α → Prop) : Prop where
  pure {α : Type} (a : α) : R α (pure a) (pure a)
  throw {α : Type} (error : RunError) : R α (throw error) (throw error)
  bind {α β : Type} {first : Run σ α} {second : Run τ α} {f : α → Run σ β} {g : α → Run τ β} :
    R α first second → (∀ a, R β (f a) (g a)) → R β (first >>= f) (second >>= g)

theorem Run.parametric_eq : Run.Parametric fun (α : Type) (first second : Run σ α) =>
    first = second where
  pure _ := rfl
  throw _ := rfl
  bind h hf := by rw [h, funext hf]

namespace Run.Parametric

variable {R : (α : Type) → Run σ α → Run τ α → Prop} {left : Engine σ} {lower : Below σ}
  {l r : Conditional} {row : ConditionRow} {depth : Nat} {path : List Uid} (right : Engine τ)
  (upper : Below τ)

theorem runAction (h : Parametric R) (condition : Uid)
    (hwork : ∀ work, row.work = some work →
      R Unit (left.runWork lower work condition depth path)
        (right.runWork upper work condition depth path)) :
    R (Option Uid) (left.runAction lower row condition depth path)
      (right.runAction upper row condition depth path) := by
  unfold Engine.runAction
  split
  case h_1 => exact h.pure none
  case h_2 work hrow => exact h.bind (hwork work hrow) fun _ => h.pure (some work)

theorem operand (h : Parametric R) (hsame : l.conditions = r.conditions) {operand : Operand}
    (hleaf : R Trace (Engine.leaf operand) (Engine.leaf operand))
    (hnested : ∀ owner row, operand.owner? = some owner → WorkKind.of? owner = some .condition →
      l.conditions.get? owner = some row →
      R Trace (lower.condition l owner (depth + 1) path)
          (upper.condition r owner (depth + 1) path) ∧
        R (Option Uid) (left.runAction lower row owner (depth + 1) path)
          (right.runAction upper row owner (depth + 1) path)) :
    R Trace (left.operand lower l operand depth path)
      (right.operand upper r operand depth path) := by
  cases operand with
  | static value => exact hleaf
  | internal owner key =>
    simp only [Engine.operand, ← hsame]
    split
    case isFalse => exact hleaf
    case isTrue hkind =>
      split
      case h_1 => exact hleaf
      case h_2 row hrow =>
        obtain ⟨hcondition, haction⟩ := hnested owner row rfl hkind hrow
        split
        case isFalse => exact h.throw _
        case isTrue =>
          refine h.bind hcondition fun trace => ?_
          split
          · exact h.bind haction fun _ => h.pure trace
          · exact h.pure trace

theorem operandOrNull (h : Parametric R) {operand : Option Operand}
    (hoperand : ∀ value, operand = some value →
      R Trace (left.operand lower l value depth path) (right.operand upper r value depth path)) :
    R Trace (left.operandOrNull lower l operand depth path)
      (right.operandOrNull upper r operand depth path) := by
  cases operand with
  | none => exact h.pure _
  | some value => exact hoperand value rfl

theorem evaluateRow (h : Parametric R) (r : Conditional)
    (hoperands : ∀ operand ∈ row.operands,
      R Trace (left.operand lower l operand depth path)
        (right.operand upper r operand depth path)) :
    R Trace (left.evaluateRow lower l row depth path)
      (right.evaluateRow upper r row depth path) := by
  have hleft := fun value hvalue => hoperands value (ConditionRow.mem_operands_of_left hvalue)
  have hright := fun value hvalue => hoperands value (ConditionRow.mem_operands_of_right hvalue)
  unfold Engine.evaluateRow
  split
  · split
    case h_1 => exact h.pure _
    case h_2 value hvalue => exact h.bind (hleft value hvalue) fun _ => h.pure _
  · refine h.bind (h.operandOrNull right upper hleft) fun _ => ?_
    split
    · exact h.pure _
    · split
      · exact h.pure _
      · exact h.bind (h.operandOrNull right upper hright) fun _ => h.pure _

theorem runConditions (h : Parametric R)
    (hpolicy : left.executor.policy = right.executor.policy) (hsame : l.conditions = r.conditions)
    (uid : Uid) (hrecord : ∀ record, R Unit (Run.record record) (Run.record record))
    (hrows : ∀ condition row, l.conditions.get? condition = some row →
      R Trace (lower.condition l condition depth path) (upper.condition r condition depth path) ∧
        R (Option Uid) (left.runAction lower row condition (depth + 1) path)
          (right.runAction upper row condition (depth + 1) path))
    (conditions matched : List Uid) :
    R (List Uid) (left.runConditions lower uid l depth path conditions matched)
      (right.runConditions upper uid r depth path conditions matched) := by
  induction conditions generalizing matched with
  | nil => exact h.pure _
  | cons condition conditions ih =>
    simp only [Engine.runConditions, ← hsame, ← hpolicy]
    split
    case h_1 => exact h.throw _
    case h_2 row hrow =>
      obtain ⟨hcondition, haction⟩ := hrows condition row hrow
      refine h.bind hcondition fun trace => ?_
      split
      · refine h.bind haction fun work => h.bind (hrecord _) fun _ => ?_
        split
        · exact h.pure _
        · exact ih _
      · exact h.bind (hrecord _) fun _ => ih _

end Run.Parametric

end Workflow
