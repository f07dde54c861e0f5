set_option autoImplicit false

namespace Workflow

/-- The number `digits · 10 ^ exponent`. -/
structure Decimal where
  digits : Nat
  exponent : Int
  deriving DecidableEq, Repr

namespace Decimal

def digit? (c : Char) : Option Nat :=
  if '0' ≤ c ∧ c ≤ '9' then some (c.toNat - '0'.toNat) else none

def takeDigits : List Char → List Nat × List Char
  | [] => ([], [])
  | c :: cs =>
    match digit? c with
    | some d => let (ds, rest) := takeDigits cs; (d :: ds, rest)
    | none => ([], c :: cs)

def ofDigits (digits : List Nat) : Nat := digits.foldl (fun n d => 10 * n + d) 0

def readNat? (cs : List Char) : Option Nat :=
  match takeDigits cs with
  | (d :: ds, []) => some (ofDigits (d :: ds))
  | _ => none

def readPower (negative : Bool) (cs : List Char) : Option (Int × List Char) :=
  match takeDigits cs with
  | ([], _) => none
  | (digits, rest) => some (if negative then -(ofDigits digits : Int) else ofDigits digits, rest)

/-- The exponent in front, `none` within where there is no exponent mark. -/
def readExponent : List Char → Option (Option Int × List Char)
  | [] => some (none, [])
  | c :: cs =>
    if c = 'e' ∨ c = 'E' then
      (match cs with
        | '+' :: cs => readPower false cs
        | '-' :: cs => readPower true cs
        | cs => readPower false cs).map fun (power, rest) => (some power, rest)
    else some (none, c :: cs)

end Decimal

end Workflow
