import Workflow.Binary64.Basic
import Workflow.Table

/-!
JSON values. Integers and floats stay apart: `1` and `1.0` are two values of one number. The fields
of an object stand in the order in which they are written; a value that was read has them in key
order.
-/

set_option autoImplicit false

namespace Workflow

inductive Number where
  | integer (value : Int)
  | float (value : Binary64)
  deriving DecidableEq, Repr

namespace Number

def round : Number → Binary64.Extended
  | .integer n => Binary64.ofInt n
  | .float x => .finite x

end Number

inductive Json where
  | null
  | bool (value : Bool)
  | number (value : Number)
  | string (value : String)
  | array (items : List Json)
  | object (fields : List (String × Json))
  deriving Repr, Inhabited

namespace Json

def ofInt (n : Int) : Json := .number (.integer n)

/-- An object with its fields in key order; of two fields with one key the later one stays. -/
def ofFields (fields : List (String × Json)) : Json :=
  .object (fields.foldl (fun sorted field => Table.insertEntry field.1 field.2 sorted) [])

def ofTable (table : Table Json) : Json := .object table.entries

def field? (name : String) : Json → Option Json
  | .object fields => fields.lookup name
  | _ => none

def string? : Json → Option String
  | .string text => some text
  | _ => none

def array? : Json → Option (List Json)
  | .array items => some items
  | _ => none

mutual

def sorted : Json → Json
  | .array items => .array (sortedItems items)
  | .object fields => .object (sortedFields fields)
  | value => value

def sortedItems : List Json → List Json
  | [] => []
  | item :: items => sorted item :: sortedItems items

def sortedFields : List (String × Json) → List (String × Json)
  | [] => []
  | (key, value) :: fields => Table.insertEntry key (sorted value) (sortedFields fields)

end

end Json

end Workflow
