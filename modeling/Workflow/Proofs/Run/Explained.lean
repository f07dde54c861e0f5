import Workflow.Run.Execution

set_option autoImplicit false

namespace Workflow

theorem Trace.holds_of_value_eq {trace : Trace} {holds : Bool} (h : trace.value = .bool holds) :
    trace.holds = holds := by
  rw [Trace.holds, h, Json.isTruthy]

/-- Every part of the trace came to what follows from the parts below it. There is no case for a
skipped part alone: it stands only to the right of a conjunction whose left side is false, or of a
disjunction whose left side is true. -/
inductive Trace.Explained : Trace → Prop
  | leaf (source : String) (value : Json) : Explained (.leaf source value)
  | otherwise : Explained .otherwise
  | precomputed {value : Trace} :
      value.Explained → Explained (.precomputed value value.value.isTruthy)
  | unary {child : Trace} :
      child.Explained → Explained (.unary .not child (Operator.not.apply child.value .null))
  | binary {operator : Operator} {left right : Trace} :
      operator ≠ .not → left.Explained → right.Explained →
      Explained (.binary operator left right (operator.apply left.value right.value))
  | falseLeft {left : Trace} : left.Explained → left.value.isTruthy = false →
      Explained (.binary .and left .notEvaluated
        (Operator.and.apply left.value Trace.notEvaluated.value))
  | trueLeft {left : Trace} : left.Explained → left.value.isTruthy = true →
      Explained (.binary .or left .notEvaluated
        (Operator.or.apply left.value Trace.notEvaluated.value))

namespace Operator

variable {operator : Operator} {left : Json}

theorem eq_not_of_isUnary (h : operator.isUnary) : operator = .not := by
  cases operator <;> first | rfl | cases h

theorem isDecidedBy_iff :
    operator.isDecidedBy left ↔
      (operator = .and ∧ left.isTruthy = false) ∨ (operator = .or ∧ left.isTruthy = true) := by
  cases operator <;> simp [isDecidedBy]

theorem apply_of_isDecidedBy (h : operator.isDecidedBy left) (right : Json) :
    operator.apply left right = decide (operator = .or) := by
  rcases isDecidedBy_iff.mp h with ⟨rfl, hleft⟩ | ⟨rfl, hleft⟩ <;> simp [apply, hleft]

end Operator

theorem Trace.Explained.decided {operator : Operator} {left : Trace} (h : left.Explained)
    (hdecided : operator.isDecidedBy left.value) :
    Explained (.binary operator left .notEvaluated (operator = .or)) := by
  rw [← Operator.apply_of_isDecidedBy hdecided Trace.notEvaluated.value]
  rcases Operator.isDecidedBy_iff.mp hdecided with ⟨rfl, hleft⟩ | ⟨rfl, hleft⟩
  · exact .falseLeft h hleft
  · exact .trueLeft h hleft

end Workflow
