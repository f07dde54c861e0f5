import Workflow.Json.Printer
import Workflow.Text.Shown

set_option autoImplicit false

namespace Workflow

inductive Found where
  | integer (value : Int)
  | float (value : Binary64)
  | bool (value : Bool)
  | null
  | string (text : String)
  | sequence
  | map
  deriving DecidableEq, Repr

inductive Fault where
  | notJson
  | missingField (name : String)
  | duplicateField (name : String)
  | unknownVariant (name : String) (known : List String)
  | wrongType (found : Found)
  | outOfRange (found : Found)
  | wrongLength (length : Nat)
  /-- Identifiers that stand more than once in an order that allows each one once. -/
  | repeated (uids : List String)
  | content (kind : String) (cause : Fault)
  deriving DecidableEq, Repr

def Found.text : Found → String
  | .integer n => "integer `" ++ toString n ++ "`"
  | .float x => "floating point `" ++ x.text ++ "`"
  | .bool true => "boolean `true`"
  | .bool false => "boolean `false`"
  | .null => "null"
  | .string s => "string " ++ Text.shown s
  | .sequence => "sequence"
  | .map => "map"

def ticked (name : String) : String := "`" ++ name ++ "`"

def knownText : List String → String
  | [a, b] => ", expected " ++ ticked a ++ " or " ++ ticked b
  | known => ", expected one of " ++ ", ".intercalate (known.map ticked)

def Fault.message : Fault → String
  | .notJson => "not JSON"
  | .missingField name => "missing field " ++ ticked name
  | .duplicateField name => "duplicate field " ++ ticked name
  | .unknownVariant name known => "unknown variant " ++ ticked name ++ knownText known
  | .wrongType found => "invalid type: " ++ found.text
  | .outOfRange found => "invalid value: " ++ found.text
  | .wrongLength length => "invalid length " ++ toString length
  | .repeated uids => "operationOrder contains duplicate UIDs: " ++ ", ".intercalate uids
  | .content kind cause => "invalid content for a " ++ kind ++ " step: " ++ cause.message

end Workflow
