import Workflow.Binary64.Shortest
import Workflow.Json.Basic

set_option autoImplicit false

namespace Workflow

/-- How floats are written: decimal exponents from `least` to below `limit` without an exponent. -/
structure FloatStyle where
  least : Int
  limit : Int
  deriving Repr

namespace FloatStyle

def json : FloatStyle := ⟨-5, 16⟩

/-- Digits with the point before the last `places` of them; a fraction is never left out. -/
def positional (digits : List Char) (exponent : Int) : List Char :=
  if 0 ≤ exponent then digits ++ List.replicate exponent.toNat '0' ++ ['.', '0']
  else
    let places := (-exponent).toNat
    if places < digits.length then
      digits.take (digits.length - places) ++ '.' :: digits.drop (digits.length - places)
    else '0' :: '.' :: List.replicate (places - digits.length) '0' ++ digits

/-- One digit before the point, no point without a fraction, and the sign of the exponent. -/
def scientific (digits : List Char) (power : Int) : List Char :=
  let fraction := digits.drop 1
  digits.take 1 ++ (if fraction.isEmpty then [] else '.' :: fraction) ++
    'e' :: (if power < 0 then '-' else '+') :: (toString power.natAbs).toList

def magnitude (style : FloatStyle) (decimal : Decimal) : List Char :=
  let digits := (toString decimal.digits).toList
  let power := decimal.exponent + digits.length - 1
  if style.least ≤ power ∧ power < style.limit then positional digits decimal.exponent
  else scientific digits power

end FloatStyle

def Binary64.text (x : Binary64) : String :=
  let digits :=
    if x.units = 0 then ['0', '.', '0']
    else FloatStyle.json.magnitude (Binary64.shortestDecimal x.units)
  String.ofList (if x.negative then '-' :: digits else digits)

def Number.text : Number → String
  | .integer n => toString n
  | .float x => x.text

namespace Json

def hexDigit (n : Nat) : Char := if n < 10 then Char.ofNat (48 + n) else Char.ofNat (87 + n)

def escape (c : Char) : List Char :=
  if c = '"' then ['\\', '"']
  else if c = '\\' then ['\\', '\\']
  else if c.val = 8 then ['\\', 'b']
  else if c.val = 9 then ['\\', 't']
  else if c.val = 10 then ['\\', 'n']
  else if c.val = 12 then ['\\', 'f']
  else if c.val = 13 then ['\\', 'r']
  else if c.val < 32 then
    ['\\', 'u', '0', '0', hexDigit (c.toNat / 16), hexDigit (c.toNat % 16)]
  else [c]

def quote (text : String) : String := String.ofList ('"' :: text.toList.flatMap escape ++ ['"'])

mutual

def compact : Json → String
  | .null => "null"
  | .bool true => "true"
  | .bool false => "false"
  | .number n => n.text
  | .string text => quote text
  | .array items => "[" ++ ",".intercalate (compactItems items) ++ "]"
  | .object fields => "\x7b" ++ ",".intercalate (compactFields fields) ++ "\x7d"

def compactItems : List Json → List String
  | [] => []
  | item :: items => compact item :: compactItems items

def compactFields : List (String × Json) → List String
  | [] => []
  | (key, value) :: fields => (quote key ++ ":" ++ compact value) :: compactFields fields

end

def indentation (depth : Nat) : String := String.ofList (List.replicate (2 * depth) ' ')

/-- Entries on lines of their own, one level deeper than the brackets; none leave the brackets
closed. -/
def block (opening closing : String) (depth : Nat) (entries : List String) : String :=
  if entries.isEmpty then opening ++ closing
  else
    let lines := entries.map fun entry => indentation (depth + 1) ++ entry
    opening ++ "\n" ++ ",\n".intercalate lines ++ "\n" ++ indentation depth ++ closing

mutual

def pretty (depth : Nat) : Json → String
  | .array items => block "[" "]" depth (prettyItems (depth + 1) items)
  | .object fields => block "\x7b" "\x7d" depth (prettyFields (depth + 1) fields)
  | .null => "null"
  | .bool true => "true"
  | .bool false => "false"
  | .number n => n.text
  | .string text => quote text

def prettyItems (depth : Nat) : List Json → List String
  | [] => []
  | item :: items => pretty depth item :: prettyItems depth items

def prettyFields (depth : Nat) : List (String × Json) → List String
  | [] => []
  | (key, value) :: fields =>
    (quote key ++ ": " ++ pretty depth value) :: prettyFields depth fields

end

end Json

end Workflow
