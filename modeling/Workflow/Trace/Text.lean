import Workflow.Trace.Basic

set_option autoImplicit false

namespace Workflow

/-- The part before the point, held within sixty-four bits. -/
def Binary64.clampToInt64 (x : Binary64) : Int :=
  max (-9223372036854775808) (min 9223372036854775807 x.truncate)

/-- Values as they are shown after a reference: JSON, but floats without a fraction as integers. -/
def Json.seenText : Json → String
  | .number (.float x) => if x.isIntegral then toString x.clampToInt64 else x.text
  | value => value.compact

namespace Trace

def leafText (source : String) (value : Json) : String :=
  if source.toList.head? = some '$' then source ++ " (was " ++ value.seenText ++ ")" else source

def parenthesized (needed : Bool) (text : String) : String :=
  if needed then "(" ++ text ++ ")" else text

/-- The text of a part that stands in one of precedence `outer`. A skipped right side leaves no
mark. -/
def textWithin (outer : Nat) : Trace → String
  | .binary operator left right _ =>
    parenthesized (operator.precedence < outer) <|
      match right with
      | .notEvaluated => textWithin operator.precedence left
      | right =>
        textWithin operator.precedence left ++ " " ++ operator.symbol ++ " " ++
          textWithin operator.precedence right
  | .unary operator child _ =>
    parenthesized (8 < outer) (operator.symbol ++ " " ++ textWithin 8 child)
  | .precomputed value _ => parenthesized (8 < outer) (textWithin 8 value)
  | .otherwise => parenthesized (9 < outer) "else"
  | .leaf source value => parenthesized (9 < outer) (leafText source value)
  | .notEvaluated => parenthesized (9 < outer) ""

def text (trace : Trace) : String := trace.textWithin 0

end Trace

namespace TraceRecord

def verdict (record : TraceRecord) : String :=
  match record.work, record.matched with
  | some work, true => "matched, ran " ++ work
  | none, true => "matched"
  | _, false => "not matched"

def text (record : TraceRecord) : String :=
  "[" ++ record.operation ++ "] " ++ record.condition ++ ": " ++ record.trace.text ++ " => " ++
    record.verdict

def textOfAll (records : List TraceRecord) : String := "\n".intercalate (records.map text)

def ofOperation (operation : Uid) (records : List TraceRecord) : List TraceRecord :=
  records.filter fun record => record.operation = operation

end TraceRecord

end Workflow
