import Workflow.Binary64.Basic
import Workflow.Decimal
import Workflow.Text.WhiteSpace

set_option autoImplicit false

namespace Workflow

namespace Binary64

def readDecimal? (negative : Bool) (cs : List Char) : Option Extended :=
  let (whole, cs) := Decimal.takeDigits cs
  let (fraction, cs) := match cs with
    | '.' :: cs => Decimal.takeDigits cs
    | cs => ([], cs)
  if whole.isEmpty && fraction.isEmpty then none
  else
    match Decimal.readExponent cs with
    | some (exponent, []) =>
      some (ofDecimal negative (Decimal.ofDigits (whole ++ fraction))
        (exponent.getD 0 - fraction.length))
    | _ => none

def readUnsigned? (negative : Bool) (cs : List Char) : Option Extended :=
  let name := String.ofList (cs.map Char.toLower)
  if name = "inf" ∨ name = "infinity" then some (.infinite negative)
  else if name = "nan" then some .nan
  else readDecimal? negative cs

def ofText? (text : String) : Option Extended :=
  match Text.trim text.toList with
  | '-' :: cs => readUnsigned? true cs
  | '+' :: cs => readUnsigned? false cs
  | cs => readUnsigned? false cs

end Binary64

end Workflow
