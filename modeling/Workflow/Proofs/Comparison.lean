import Workflow.Operator.Comparison

/-!
Laws of comparisons. Equality and order take values apart in different ways, and still agree: main
statement, for all values strict equality is an equivalence that implies loose equality, loose
equality is reflexive and symmetric, and two values are in at most one of the relations less, equal
and greater.
-/

set_option autoImplicit false

namespace Workflow

namespace Binary64

def unsigned (x : Binary64) : Binary64 := { x with negative := x.negative && decide (x.units ≠ 0) }

theorem value_eq_iff {x y : Binary64} : x.value = y.value ↔ x.unsigned = y.unsigned := by
  obtain ⟨xneg, xunits, _, _⟩ := x
  obtain ⟨yneg, yunits, _, _⟩ := y
  by_cases hx : xunits = 0 <;> by_cases hy : yunits = 0 <;> cases xneg <;> cases yneg <;>
    simp [value, unsigned, hx, hy] <;> omega

namespace Extended

theorem compare?_swap (x y : Extended) : (x.compare? y).map Ordering.swap = y.compare? x := by
  cases x with
  | nan => cases y <;> rfl
  | finite x =>
    cases y with
    | nan => rfl
    | finite y => simp only [compare?, Option.map_some, Int.compare_swap]
    | infinite negative => cases negative <;> rfl
  | infinite negative =>
    cases y with
    | nan => rfl
    | finite y => cases negative <;> rfl
    | infinite other => cases negative <;> cases other <;> rfl

def unsigned : Extended → Extended
  | .finite x => .finite x.unsigned
  | x => x

theorem same_iff {x y : Extended} : x.same y ↔ x ≠ .nan ∧ x.unsigned = y.unsigned := by
  cases x with
  | nan => simp [same, compare?]
  | finite x =>
    cases y with
    | nan => simp [same, compare?, unsigned]
    | finite y => simp [same, compare?, unsigned, value_eq_iff]
    | infinite negative => cases negative <;> simp [same, compare?, unsigned]
  | infinite negative =>
    cases y with
    | nan => simp [same, compare?, unsigned]
    | finite y => cases negative <;> simp [same, compare?, unsigned]
    | infinite other => cases negative <;> cases other <;> simp [same, compare?, unsigned]

theorem same_self {x : Extended} (h : x ≠ .nan) : x.same x := same_iff.mpr ⟨h, rfl⟩

end Extended

theorem ofInt_ne_nan (n : Int) : ofInt n ≠ .nan := by
  simp only [ofInt, ofQuotient, ofUnits]
  split <;> simp

end Binary64

namespace Number

theorem round_ne_nan (n : Number) : n.round ≠ .nan := by
  cases n with
  | integer n => exact Binary64.ofInt_ne_nan n
  | float x => simp [round]

def unsigned : Number → Number
  | .integer n => .integer n
  | .float x => .float x.unsigned

theorem same_iff {a b : Number} : a.same b ↔ a.unsigned = b.unsigned := by
  cases a <;> cases b <;> simp [same, unsigned, Binary64.value_eq_iff]

end Number

namespace Json

mutual

def unsigned : Json → Json
  | .number n => .number n.unsigned
  | .array items => .array (unsignedItems items)
  | .object fields => .object (unsignedFields fields)
  | value => value

def unsignedItems : List Json → List Json
  | [] => []
  | item :: items => unsigned item :: unsignedItems items

def unsignedFields : List (String × Json) → List (String × Json)
  | [] => []
  | (key, value) :: fields => (key, unsigned value) :: unsignedFields fields

end

mutual

theorem same_iff (a b : Json) : a.same b ↔ a.unsigned = b.unsigned := by
  cases a with
  | number m => cases b <;> simp [same, unsigned, Number.same_iff]
  | array as => cases b <;> simp [same, unsigned, sameItems_iff as]
  | object as => cases b <;> simp [same, unsigned, sameFields_iff as]
  | null | bool | string => cases b <;> simp [same, unsigned]

theorem sameItems_iff (as bs : List Json) :
    sameItems as bs ↔ unsignedItems as = unsignedItems bs := by
  cases as with
  | nil => cases bs <;> simp [sameItems, unsignedItems]
  | cons a as => cases bs <;> simp [sameItems, unsignedItems, same_iff a, sameItems_iff as]

theorem sameFields_iff (as bs : List (String × Json)) :
    sameFields as bs ↔ unsignedFields as = unsignedFields bs := by
  cases as with
  | nil => cases bs <;> simp [sameFields, unsignedFields]
  | cons a as =>
    obtain ⟨key, a⟩ := a
    cases bs <;> simp [sameFields, unsignedFields, same_iff a, sameFields_iff as, and_assoc]

end

/-- What strict equality goes by: numbers are binary64 numbers, and all else is what it is. -/
def strictKey : Json → Binary64.Extended ⊕ Json
  | .number n => .inl n.round.unsigned
  | value => .inr value.unsigned

theorem strictEq_iff {a b : Json} : a.strictEq b ↔ a.strictKey = b.strictKey := by
  cases a with
  | number m =>
    cases b <;> simp [strictEq, same, strictKey, Binary64.Extended.same_iff, m.round_ne_nan]
  | null | bool | string | array | object =>
    cases b <;> simp [strictEq, strictKey, same_iff, unsigned]

theorem strictEq_comm (a b : Json) : a.strictEq b = b.strictEq a := by
  rw [Bool.eq_iff_iff, strictEq_iff, strictEq_iff, eq_comm]

def numericOrder? (a b : Json) : Option Ordering := do (← a.number?).compare? (← b.number?)

theorem numericOrder?_swap (a b : Json) :
    (a.numericOrder? b).map Ordering.swap = b.numericOrder? a := by
  unfold numericOrder?
  cases a.number? with
  | none => cases b.number? <;> rfl
  | some x =>
    cases b.number? with
    | none => rfl
    | some y => exact x.compare?_swap y

theorem numericEq_iff {a b : Json} : numericEq a b ↔ a.numericOrder? b = some .eq := by
  unfold numericEq numericOrder?
  cases a.number? with
  | none => simp
  | some x =>
    cases b.number? with
    | none => simp
    | some y => simp [Binary64.Extended.same]

theorem numericEq_comm (a b : Json) : numericEq a b = numericEq b a := by
  rw [Bool.eq_iff_iff, numericEq_iff, numericEq_iff, ← numericOrder?_swap a b]
  cases a.numericOrder? b with
  | none => simp
  | some order => cases order <;> simp

theorem looseEq_comm (a b : Json) : a.looseEq b = b.looseEq a := by
  cases a <;> cases b <;> simp [looseEq, strictEq_comm, numericEq_comm, eq_comm]

theorem looseEq_of_strictEq {a b : Json} (h : a.strictEq b) : a.looseEq b := by
  cases a with
  | number m =>
    cases b with
    | number n => simpa [looseEq, numericEq, number?, strictEq] using h
    | null | bool | string | array | object => simp [strictEq, same] at h
  | bool value =>
    cases b with
    | bool other =>
      obtain rfl : value = other := by simpa [strictEq, same] using h
      exact Binary64.Extended.same_self (Binary64.ofInt_ne_nan _)
    | null | number | string | array | object => simp [strictEq, same] at h
  | null | string | array | object => cases b <;> simp_all [looseEq, strictEq, same]

/-- How two values are compared: as texts, as numbers, or in no order. -/
inductive Compared : Json → Json → Prop
  | texts (s t : String) : Compared (.string s) (.string t)
  | numbers {a b : Json} : a.looseEq b = numericEq a b → a.order? b = a.numericOrder? b →
      b.order? a = b.numericOrder? a → Compared a b
  | apart {a b : Json} : a.order? b = none → b.order? a = none → Compared a b

theorem compared (a b : Json) : Compared a b := by
  cases a with
  | null | array | object =>
    cases b <;> exact .apart (by simp [order?, number?]) (by simp [order?, number?])
  | bool | number =>
    cases b with
    | null | array | object => exact .apart (by simp [order?, number?]) (by simp [order?, number?])
    | bool | number | string => exact .numbers rfl rfl rfl
  | string s =>
    cases b with
    | null | array | object => exact .apart (by simp [order?, number?]) (by simp [order?, number?])
    | bool | number => exact .numbers rfl rfl rfl
    | string t => exact .texts s t

theorem order?_swap (a b : Json) : (a.order? b).map Ordering.swap = b.order? a := by
  cases compared a b with
  | texts s t =>
    rcases Std.lt_trichotomy s t with hlt | rfl | hgt
    · have hne : t ≠ s := (String.ne_of_lt hlt).symm
      simp [order?, hlt, String.lt_asymm hlt, hne]
    · rw [order?, if_neg (String.lt_irrefl s), if_pos rfl]
      rfl
    · have hne : s ≠ t := (String.ne_of_lt hgt).symm
      simp [order?, hgt, String.lt_asymm hgt, hne]
  | numbers _ hab hba => rw [hab, hba, numericOrder?_swap]
  | apart hab hba => rw [hab, hba, Option.map_none]

theorem looseEq_iff_of_order? {a b : Json} {order : Ordering} (h : a.order? b = some order) :
    a.looseEq b ↔ order = .eq := by
  cases compared a b with
  | texts s t =>
    rcases Std.lt_trichotomy s t with hlt | rfl | hgt
    · have hne : s ≠ t := String.ne_of_lt hlt
      obtain rfl : .lt = order := by simpa [order?, hlt] using h
      simp [looseEq, hne]
    · obtain rfl : .eq = order := by simpa [order?, String.lt_irrefl] using h
      simp [looseEq]
    · have hne : s ≠ t := (String.ne_of_lt hgt).symm
      obtain rfl : .gt = order := by simpa [order?, String.lt_asymm hgt, hne] using h
      simp [looseEq, hne]
  | numbers heq hab _ => rw [heq, numericEq_iff, ← hab, h, Option.some.injEq]
  | apart hab _ => rw [hab] at h; cases h

end Json

namespace Operator

/-- Strict equality is an equivalence and implies loose equality, which is reflexive and symmetric.
The four orders are two, each with its converse. No two of less, equal and greater hold together;
what is both at most and at least another value is equal to it; and what is at most another value is
less or equal. -/
theorem comparison_laws :
    Equivalence (fun a b => strictEqual.apply a b = true) ∧
      (∀ a, equal.apply a a) ∧ (∀ a b, equal.apply a b → equal.apply b a) ∧
      (∀ a b, strictEqual.apply a b → equal.apply a b) ∧
      (∀ a b, less.apply a b ↔ greater.apply b a) ∧
      (∀ a b, lessOrEqual.apply a b ↔ greaterOrEqual.apply b a) ∧
      (∀ a b, ([less, equal, greater].countP fun op => op.apply a b) ≤ 1) ∧
      (∀ a b, lessOrEqual.apply a b → greaterOrEqual.apply a b → equal.apply a b) ∧
      (∀ a b, lessOrEqual.apply a b → less.apply a b ∨ equal.apply a b) := by
  have hstrict : Equivalence fun a b : Json => strictEqual.apply a b = true := by
    refine ⟨fun a => Json.strictEq_iff.mpr rfl, fun h => ?_, fun h h' => ?_⟩
    · exact Json.strictEq_iff.mpr (Json.strictEq_iff.mp h).symm
    · exact Json.strictEq_iff.mpr ((Json.strictEq_iff.mp h).trans (Json.strictEq_iff.mp h'))
  refine ⟨hstrict, fun a => Json.looseEq_of_strictEq (hstrict.refl a), fun a b h => ?_,
    fun a b => Json.looseEq_of_strictEq, fun a b => ?_, fun a b => ?_, fun a b => ?_,
    fun a b hle hge => ?_, fun a b hle => ?_⟩
  · exact (Json.looseEq_comm b a).trans h
  · simp only [apply, ← Json.order?_swap a b]
    rcases a.order? b with _ | _ | _ | _ <;> decide
  · simp only [apply, ← Json.order?_swap a b]
    rcases a.order? b with _ | _ | _ | _ <;> decide
  · simp only [apply, List.countP_cons, List.countP_nil]
    cases horder : a.order? b with
    | none => cases a.looseEq b <;> simp
    | some order =>
      have heq := Json.looseEq_iff_of_order? horder
      cases order <;> simp_all
  · simp only [apply] at hle hge ⊢
    cases horder : a.order? b with
    | none => simp [horder] at hle
    | some order =>
      rw [Json.looseEq_iff_of_order? horder]
      cases order <;> simp_all
  · simp only [apply] at hle ⊢
    cases horder : a.order? b with
    | none => simp [horder] at hle
    | some order =>
      rw [Json.looseEq_iff_of_order? horder]
      cases order <;> simp_all

theorem number_and_text :
    let one := Json.ofInt 1
    let text := Json.string " 1e0 "
    lessOrEqual.apply one text ∧ greaterOrEqual.apply one text ∧ equal.apply text one ∧
      ¬ strictEqual.apply one text := by
  intro one text
  have hle : lessOrEqual.apply one text := by decide +kernel
  have hge : greaterOrEqual.apply one text := by decide +kernel
  obtain ⟨-, -, hsymm, -, -, -, -, hantisymm, -⟩ := comparison_laws
  exact ⟨hle, hge, hsymm _ _ (hantisymm _ _ hle hge), by decide⟩

end Operator

end Workflow
