import Workflow.Binary64.Basic
import Workflow.Decimal

/-!
The shortest decimal that rounds to a given binary64 magnitude. Decimals with few digits are the
points of a coarse grid of powers of ten, so the search goes from the coarsest grid to the finest
and stops at the first one with a point in the rounding interval.
-/

set_option autoImplicit false

namespace Workflow

attribute [local instance (high)] instPowNat

namespace Binary64

/-- The reals that round to a magnitude, in quarters of a unit. The ends belong to it iff the
significand is even. -/
structure RoundingInterval where
  low : Nat
  centre : Nat
  high : Nat
  closed : Bool
  deriving DecidableEq, Repr

/-- Half a spacing to each side; below a power of two the spacing is half as wide, the least one
apart. -/
def roundingInterval (units : Nat) : RoundingInterval where
  low :=
    if units = 2 ^ units.log2 ∧ 52 < units.log2 then 4 * units - spacing units
    else 4 * units - 2 * spacing units
  centre := 4 * units
  high := 4 * units + 2 * spacing units
  closed := units / spacing units % 2 = 0

namespace RoundingInterval

def scale (interval : RoundingInterval) (factor : Nat) : RoundingInterval :=
  { interval with
    low := interval.low * factor
    centre := interval.centre * factor
    high := interval.high * factor }

def holds (interval : RoundingInterval) (point : Nat) : Bool :=
  if interval.closed then interval.low ≤ point && point ≤ interval.high
  else interval.low < point && point < interval.high

/-- The multiple of `step` in the interval that lies nearest to its centre, as a multiplier; of two
equally near ones the even one. -/
def nearestMultiple? (interval : RoundingInterval) (step : Nat) : Option Nat :=
  let below := interval.centre / step
  let rest := interval.centre % step
  match interval.holds (below * step), interval.holds ((below + 1) * step) with
  | false, false => none
  | true, false => some below
  | false, true => some (below + 1)
  | true, true => some (nearestQuotient (below * step + rest) step)

end RoundingInterval

/-- The decimal of the grid of `10 ^ exponent` that rounds to a magnitude and is nearest to it. -/
def decimalOnGrid? (units : Nat) (exponent : Int) : Option Decimal :=
  let interval := (roundingInterval units).scale (10 ^ (-exponent).toNat)
  (interval.nearestMultiple? (4 * one * 10 ^ exponent.toNat)).map (⟨·, exponent⟩)

def gridExponents : List Int := (List.range 640).map fun (i : Nat) => (309 : Int) - i

def shortestDecimal (units : Nat) : Decimal :=
  (gridExponents.findSome? (decimalOnGrid? units)).getD ⟨0, 0⟩

end Binary64

end Workflow
