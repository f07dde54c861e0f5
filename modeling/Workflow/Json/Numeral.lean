import Workflow.Decimal
import Workflow.Json.Basic

/-!
Number literals. A literal without fraction and exponent that fits sixty-four bits is an integer,
any other one a float, which keeps the leading digits that fit sixty-four bits and scales them by a
power of ten.
-/

set_option autoImplicit false

namespace Workflow

structure Numeral where
  negative : Bool
  whole : List Nat
  fraction : Option (List Nat)
  exponent : Option Int
  deriving Repr

namespace Numeral

/-- Appends digits as long as the significand fits sixty-four bits, and counts those left out. -/
def absorb (significand : Nat) : List Nat → Nat × Nat
  | [] => (significand, 0)
  | d :: ds =>
    if 10 * significand + d < UInt64.size then absorb (10 * significand + d) ds
    else (significand, ds.length + 1)

def powerOfTen (n : Nat) : Binary64.Extended := Binary64.ofDecimal false 1 n

def greatestPower : Nat := 308

def multiply? (x : Binary64) (power : Nat) : Option Binary64 :=
  match powerOfTen power with
  | .finite p => match x.mul p with
    | .finite y => some y
    | _ => none
  | _ => none

def divide? (x : Binary64) (power : Nat) : Option Binary64 :=
  match powerOfTen power with
  | .finite p => match x.div p with
    | .finite y => some y
    | _ => none
  | _ => none

/-- Divides by the greatest power as many times as `steps` says, and then by the one that is left.
-/
def scaleDown (x : Binary64) (steps rest : Nat) : Option Binary64 :=
  if x.units = 0 then some x
  else match steps with
    | 0 => divide? x rest
    | steps + 1 => (divide? x greatestPower).bind fun y => scaleDown y steps rest

def scale (x : Binary64) (power : Int) : Option Binary64 :=
  if x.units = 0 then some x
  else if power < 0 then
    let steps := (power.natAbs - 1) / greatestPower
    scaleDown x steps (power.natAbs - steps * greatestPower)
  else if (greatestPower : Int) < power then none
  else multiply? x power.toNat

/-- The significand rounds to a binary64 number first and is then scaled. -/
def float? (numeral : Numeral) : Option Binary64 :=
  let fraction := numeral.fraction.getD []
  let whole := absorb 0 numeral.whole
  let all := absorb whole.1 fraction
  let power := numeral.exponent.getD 0 + whole.2 - ((fraction.length - all.2 : Nat) : Int)
  match Binary64.ofQuotient false all.1 1 with
  | .finite x => (scale x power).map fun y => { y with negative := numeral.negative }
  | _ => none

/-- The integer of a literal without fraction and exponent. Minus zero is no integer. -/
def integer? (numeral : Numeral) : Option Int :=
  if numeral.fraction.isSome || numeral.exponent.isSome then none
  else
    let n := Decimal.ofDigits numeral.whole
    if numeral.negative then if 0 < n ∧ n ≤ 9223372036854775808 then some (-(n : Int)) else none
    else if n < UInt64.size then some n else none

def value? (numeral : Numeral) : Option Number :=
  match numeral.integer? with
  | some n => some (.integer n)
  | none => numeral.float?.map .float

def readWhole (cs : List Char) : Option (List Nat × List Char) :=
  match Decimal.takeDigits cs with
  | ([], _) => none
  | (0 :: _ :: _, _) => none
  | found => some found

def readFraction : List Char → Option (Option (List Nat) × List Char)
  | '.' :: cs =>
    match Decimal.takeDigits cs with
    | ([], _) => none
    | (digits, rest) => some (some digits, rest)
  | cs => some (none, cs)

def read (cs : List Char) : Option (Numeral × List Char) := do
  let (negative, cs) := match cs with
    | '-' :: cs => (true, cs)
    | cs => (false, cs)
  let (whole, cs) ← readWhole cs
  let (fraction, cs) ← readFraction cs
  let (exponent, cs) ← Decimal.readExponent cs
  return (⟨negative, whole, fraction, exponent⟩, cs)

end Numeral

end Workflow
