set_option autoImplicit false

namespace Workflow.Text

/-- Where a text stands in the escape sequences within it. -/
inductive Escape where
  | outside
  | opened
  | selection
  | control
  | device
  | deviceNumbers
  | deviceMarks
  | body
  | command
  deriving DecidableEq, Repr

def endsBody (c : Char) : Bool := (String.utf8EncodeChar c).contains 0x9C

/-- Where a text stands behind a character. Two controls give up any sequence, and the escape mark
begins a new one. -/
def Escape.next (state : Escape) (c : Char) : Escape :=
  if c = '\x1B' then .opened
  else if c = '\x18' || c = '\x1A' then .outside
  else
    match state with
    | .outside => .outside
    | .opened =>
      if c < ' ' || '~' < c then .opened
      else if c < '0' then .selection
      else
        match c with
        | '[' => .control
        | ']' => .command
        | 'P' => .device
        | 'X' | '^' | '_' => .body
        | _ => .outside
    | .selection => if '0' ≤ c && c ≤ '~' then .outside else .selection
    | .control => if '@' ≤ c && c ≤ '~' then .outside else .control
    | .device =>
      if c < ' ' || '~' < c then .device
      else if c < '0' then .deviceMarks
      else if c < '@' then .deviceNumbers
      else .body
    | .deviceNumbers =>
      if c < ' ' || '~' < c then .deviceNumbers
      else if c < '0' then .deviceMarks
      else if c < '<' then .deviceNumbers
      else .body
    | .deviceMarks => if '0' ≤ c && c ≤ '~' then .body else .deviceMarks
    | .body => if endsBody c then .outside else .body
    | .command => if c = '\x07' then .outside else .command

def isBlankControl (c : Char) : Bool := c = '\t' || c = '\n' || c = '\x0C' || c = '\r'

def Escape.shows (state : Escape) (c : Char) : Bool :=
  match state with
  | .outside => isBlankControl c || (' ' ≤ c && c ≠ '\x7F')
  | .opened | .selection | .control => isBlankControl c
  | _ => false

/-- The characters that are left. What follows a character that was left standing is read as outside
of any sequence, up to the next control; then the sequence goes on, unless a character beyond ASCII
has ended it. -/
def plainChars : Bool → Escape → List Char → List Char
  | _, _, [] => []
  | running, state, c :: cs =>
    if (if running then Escape.outside else state).shows c then
      c :: plainChars true (if '\x7F' < c then .outside else state) cs
    else plainChars false (state.next c) cs

def plain (text : String) : String := String.ofList (plainChars false .outside text.toList)

end Workflow.Text
