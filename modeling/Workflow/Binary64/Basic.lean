/-!
Finite binary64 numbers in exact arithmetic. A magnitude is a natural number of the least positive
binary64 number, two to the power of minus 1074, so a comparison is one of integers and rounding is
a division of naturals. Two numbers are equal as terms iff they have the same sign and magnitude.
-/

set_option autoImplicit false

namespace Workflow

-- The power of numbers is the one of the core library, whatever else is imported.
attribute [local instance (high)] instPowNat

/-- The quotient to the nearest natural number, a half going to the even one. -/
def nearestQuotient (num den : Nat) : Nat :=
  if 2 * (num % den) < den then num / den
  else if den < 2 * (num % den) then num / den + 1
  else num / den + num / den % 2

theorem le_nearestQuotient (num den : Nat) : num / den ≤ nearestQuotient num den := by
  unfold nearestQuotient; split
  · exact Nat.le_refl _
  · split <;> omega

theorem nearestQuotient_le (num den : Nat) : nearestQuotient num den ≤ num / den + 1 := by
  unfold nearestQuotient; split
  · omega
  · split <;> omega

/-- A sign and a magnitude; the magnitude has at most fifty-three significant binary digits. -/
structure Binary64 where
  negative : Bool
  units : Nat
  log2_lt : units.log2 < 2098
  two_pow_dvd : 2 ^ (units.log2 - 52) ∣ units
  deriving DecidableEq, Repr

namespace Binary64

def one : Nat := 2 ^ (1074 : Nat)

/-- Units between the neighbours of a magnitude. -/
def spacing (units : Nat) : Nat := 2 ^ (units.log2 - 52)

/-- The representable count of units nearest to a quotient of units, a half going to the even one.
-/
def roundUnits (num den : Nat) : Nat :=
  nearestQuotient num (den * spacing (num / den)) * spacing (num / den)

theorem log2_mul_two_pow {n : Nat} (h : n ≠ 0) (k : Nat) : (n * 2 ^ k).log2 = n.log2 + k := by
  induction k with
  | zero => simp
  | succ k ih =>
    have hne : n * 2 ^ k ≠ 0 := Nat.mul_ne_zero h (Nat.ne_of_gt (Nat.two_pow_pos k))
    rw [Nat.pow_succ, ← Nat.mul_assoc, Nat.mul_comm (n * 2 ^ k) 2, Nat.log2_two_mul hne, ih]
    omega

theorem spacing_dvd_of_le {m : Nat} (h : m ≤ 2 ^ (53 : Nat)) (k : Nat) :
    spacing (m * 2 ^ k) ∣ m * 2 ^ k := by
  unfold spacing
  by_cases hz : m = 0
  · subst hz; simp
  rw [log2_mul_two_pow hz]
  rcases Nat.lt_or_eq_of_le h with hlt | rfl
  · have hl : m.log2 < 53 := (Nat.log2_lt hz).mpr hlt
    exact Nat.dvd_mul_left_of_dvd (Nat.pow_dvd_pow 2 (by omega)) m
  · have hl : (2 ^ (53 : Nat) : Nat).log2 = 53 := Nat.log2_two_pow
    rw [hl, ← Nat.pow_add]
    exact Nat.pow_dvd_pow 2 (by omega)

theorem div_spacing_lt (n : Nat) : n / spacing n < 2 ^ (53 : Nat) := by
  unfold spacing
  rw [Nat.div_lt_iff_lt_mul (Nat.two_pow_pos _), ← Nat.pow_add]
  by_cases h : n = 0
  · subst h; exact Nat.two_pow_pos _
  · exact (Nat.log2_lt h).mp (by omega)

theorem spacing_roundUnits_dvd (num den : Nat) :
    spacing (roundUnits num den) ∣ roundUnits num den := by
  have hq : num / (den * spacing (num / den)) < 2 ^ (53 : Nat) := by
    rw [← Nat.div_div_eq_div_mul]; exact div_spacing_lt _
  have hm := nearestQuotient_le num (den * spacing (num / den))
  exact spacing_dvd_of_le (by omega) _

def zero (negative : Bool) : Binary64 := ⟨negative, 0, by simp, by simp⟩

def value (x : Binary64) : Int := if x.negative then -(x.units : Int) else x.units

def isIntegral (x : Binary64) : Bool := x.units % one = 0

def truncate (x : Binary64) : Int :=
  if x.negative then -((x.units / one : Nat) : Int) else (x.units / one : Nat)

/-- What rounding a real number gives, together with the text of no number at all. -/
inductive Extended where
  | finite (x : Binary64)
  | infinite (negative : Bool)
  | nan
  deriving DecidableEq, Repr

def ofUnits (negative : Bool) (num den : Nat) : Extended :=
  if h : (roundUnits num den).log2 < 2098 then
    .finite ⟨negative, roundUnits num den, h, spacing_roundUnits_dvd num den⟩
  else .infinite negative

def ofQuotient (negative : Bool) (num den : Nat) : Extended := ofUnits negative (num * one) den

def ofInt (n : Int) : Extended := ofQuotient (n < 0) n.natAbs 1

/-- The binary64 number nearest to `digits · 10 ^ exponent`. Both tests answer without the power
where it lies far outside the range of magnitudes. -/
def ofDecimal (negative : Bool) (digits : Nat) (exponent : Int) : Extended :=
  if digits = 0 then .finite (zero negative)
  else if 310 < exponent then .infinite negative
  else if exponent + digits.log2 < -330 then .finite (zero negative)
  else ofQuotient negative (digits * 10 ^ exponent.toNat) (10 ^ (-exponent).toNat)

def mul (x y : Binary64) : Extended :=
  ofUnits (x.negative != y.negative) (x.units * y.units) one

def div (x y : Binary64) : Extended :=
  ofUnits (x.negative != y.negative) (x.units * one) y.units

namespace Extended

/-- The order of numbers; what is no number compares with nothing. -/
def compare? : Extended → Extended → Option Ordering
  | .nan, _ | _, .nan => none
  | .finite x, .finite y => some (compare x.value y.value)
  | .finite _, .infinite negative => some (if negative then .gt else .lt)
  | .infinite negative, .finite _ => some (if negative then .lt else .gt)
  | .infinite a, .infinite b => some (if a = b then .eq else if a then .lt else .gt)

def same (x y : Extended) : Bool := x.compare? y = some .eq

def isZero : Extended → Bool
  | .finite x => x.units = 0
  | _ => false

end Extended

end Binary64

end Workflow
