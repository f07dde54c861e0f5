import Workflow.Binary64.Literal
import Workflow.Json.Equality
import Workflow.Operator.Basic

set_option autoImplicit false

namespace Workflow

namespace Json

/-- Null, false, zero and the empty string do not count as true. -/
def isTruthy : Json → Bool
  | .null => false
  | .bool b => b
  | .number n => !n.round.isZero
  | .string text => text ≠ ""
  | .array _ | .object _ => true

def number? : Json → Option Binary64.Extended
  | .number n => some n.round
  | .bool b => some (Binary64.ofInt (if b then 1 else 0))
  | .string text => Binary64.ofText? text
  | _ => none

def strictEq : Json → Json → Bool
  | .number a, .number b => a.round.same b.round
  | a, b => a.same b

def numericEq (a b : Json) : Bool :=
  match a.number?, b.number? with
  | some x, some y => x.same y
  | _, _ => false

/-- Null equals null alone, strings are equal as texts, containers strictly, and all else as
numbers. -/
def looseEq : Json → Json → Bool
  | .null, .null => true
  | .null, _ | _, .null => false
  | .string a, .string b => a = b
  | .array as, b => strictEq (.array as) b
  | .object as, b => strictEq (.object as) b
  | a, .array bs => strictEq a (.array bs)
  | a, .object bs => strictEq a (.object bs)
  | a, b => numericEq a b

/-- Strings are ordered as texts, all else as numbers. -/
def order? : Json → Json → Option Ordering
  | .string a, .string b => some (if a < b then .lt else if a = b then .eq else .gt)
  | a, b => do (← a.number?).compare? (← b.number?)

/-- An item of an array, a key of an object, or a part of a text. -/
def contains (container item : Json) : Bool :=
  match container, item with
  | .array items, item => items.any fun candidate => candidate.looseEq item
  | .object fields, .string key => (fields.lookup key).isSome
  | .string text, .string part => isInfix part.toList text.toList
  | _, _ => false
where
  isInfix (part : List Char) : List Char → Bool
    | [] => part.isEmpty
    | c :: cs => part.isPrefixOf (c :: cs) || isInfix part cs

end Json

def Operator.apply (op : Operator) (a b : Json) : Bool :=
  match op with
  | .equal => a.looseEq b
  | .strictEqual => a.strictEq b
  | .notEqual => !a.looseEq b
  | .strictNotEqual => !a.strictEq b
  | .greater => a.order? b = some .gt
  | .greaterOrEqual => a.order? b = some .gt || a.order? b = some .eq
  | .less => a.order? b = some .lt
  | .lessOrEqual => a.order? b = some .lt || a.order? b = some .eq
  | .isIn => b.contains a
  | .notIn => !b.contains a
  | .and => a.isTruthy && b.isTruthy
  | .or => a.isTruthy || b.isTruthy
  | .not => !a.isTruthy

end Workflow
