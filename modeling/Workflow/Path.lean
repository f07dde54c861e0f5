import Workflow.Decimal
import Workflow.Json.Basic
import Workflow.Text.Pieces

/-!
Dotted paths into a JSON value. Empty segments count for nothing, so dots may be repeated and stand
at either end; a number selects an item of an array.
-/

set_option autoImplicit false

namespace Workflow

namespace Path

def segments (path : String) : List String :=
  ((Text.pieces '.' path.toList).filter fun piece => !piece.isEmpty).map String.ofList

/-- A decimal index below two to the power of sixty-four, which may have a plus sign in front. -/
def index? (segment : String) : Option Nat :=
  let digits := match segment.toList with
    | '+' :: digits => digits
    | digits => digits
  (Decimal.readNat? digits).filter fun n => n < UInt64.size

def child? (value : Json) (segment : String) : Option Json :=
  match value with
  | .object fields => fields.lookup segment
  | .array items => (index? segment).bind fun i => items[i]?
  | _ => none

end Path

/-- What a path selects, or `none` as soon as a segment selects nothing. -/
def Json.lookup? (value : Json) (path : String) : Option Json :=
  (Path.segments path).foldlM Path.child? value

end Workflow
