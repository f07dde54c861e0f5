import Workflow.Json.Document
import Workflow.Wire.Fault

/-!
Reading wire forms. The same readers serve values and texts: `Readable` says how either shows its
outermost layer. Parts are read from the left, and the first fault is the one that is reported.
-/

set_option autoImplicit false

namespace Workflow

/-- The outermost layer of a value or a text. -/
inductive Layer (α : Type) where
  | null
  | bool (value : Bool)
  | number (value : Number)
  | string (text : String)
  | array (items : List α) (closed : Bool)
  | object (fields : List (Option String × α)) (closed : Bool)
  | fault

class Readable (α : Type) where
  layer : α → Layer α
  value? : α → Option Json
  /-- Whether a part that nobody asks for may be passed over. -/
  skippable : α → Bool
  /-- Text is read once from the left, so what follows the part that was asked for makes the text
  malformed, where in a value it is a fault of its own. -/
  isText : Bool

instance : Readable Json where
  layer
    | .null => .null
    | .bool b => .bool b
    | .number n => .number n
    | .string text => .string text
    | .array items => .array items true
    | .object fields => .object (fields.map fun field => (some field.1, field.2)) true
  value? := some
  skippable _ := true
  isText := false

instance : Readable Document where
  layer
    | .null => .null
    | .bool b => .bool b
    | .number (some n) => .number n
    | .string (some text) => .string text
    | .array items closed => .array items closed
    | .object fields closed => .object fields closed
    | .number none | .string none | .unreadable _ | .broken => .fault
  value? := Document.value?
  skippable := Document.wellFormed
  isText := true

namespace Readable

variable {α β : Type} [Readable α]

def found? (a : α) : Option Found :=
  match layer a with
  | .null => some .null
  | .bool b => some (.bool b)
  | .number (.integer n) => some (.integer n)
  | .number (.float x) => some (.float x)
  | .string text => some (.string text)
  | .array _ _ => some .sequence
  | .object _ _ => some .map
  | .fault => none

def unexpected (a : α) : Fault :=
  match found? a with
  | some found => .wrongType found
  | none => .notJson

def readValue (a : α) : Except Fault Json :=
  match value? a with
  | some value => .ok value
  | none => .error .notJson

def readString (a : α) : Except Fault String :=
  match layer a with
  | .string text => .ok text
  | _ => .error (unexpected a)

def readBool (a : α) : Except Fault Bool :=
  match layer a with
  | .bool b => .ok b
  | _ => .error (unexpected a)

def readInteger (least greatest : Int) (a : α) : Except Fault Int :=
  match layer a with
  | .number (.integer n) =>
    if least ≤ n ∧ n ≤ greatest then .ok n else .error (.outOfRange (.integer n))
  | _ => .error (unexpected a)

def readUInt32 (a : α) : Except Fault UInt32 := do
  return UInt32.ofNat (← readInteger 0 4294967295 a).toNat

def readInt64 (a : α) : Except Fault Int64 := do
  return Int64.ofInt (← readInteger (-9223372036854775808) 9223372036854775807 a)

def readItems (read : α → Except Fault β) : List α → Except Fault (List β)
  | [] => .ok []
  | a :: as => do
    let b ← read a
    let bs ← readItems read as
    return b :: bs

def readList (read : α → Except Fault β) (a : α) : Except Fault (List β) :=
  match layer a with
  | .array items closed => do
    let bs ← readItems read items
    if closed then return bs else throw .notJson
  | _ => .error (unexpected a)

def readEntries (read : α → Except Fault β) :
    List (Option String × α) → Except Fault (List (String × β))
  | [] => .ok []
  | (none, _) :: _ => .error .notJson
  | (some key, a) :: rest => do
    let b ← read a
    let entries ← readEntries read rest
    return (key, b) :: entries

def readTable (read : α → Except Fault β) (a : α) : Except Fault (Table β) :=
  match layer a with
  | .object fields closed => do
    let entries ← readEntries read fields
    if closed then return Table.ofList entries else throw .notJson
  | _ => .error (unexpected a)

def readOption (read : α → Except Fault β) (a : α) : Except Fault (Option β) :=
  match layer a with
  | .null => .ok none
  | _ => do return some (← read a)

def variant (known : List (String × β)) (name : String) : Except Fault β :=
  match known.lookup name with
  | some b => .ok b
  | none => .error (.unknownVariant name (known.map Prod.fst))

def readUnit (a : α) : Except Fault Unit :=
  match layer a with
  | .null => .ok ()
  | _ => .error (unexpected a)

/-- One of several names, alone or as the key of an object that holds nothing else than null. -/
def readVariant (known : List (String × β)) (a : α) : Except Fault β :=
  match layer a with
  | .string name => variant known name
  | .object fields closed =>
    match fields with
    | (some name, content) :: rest =>
      if isText α || rest.isEmpty then do
        let b ← variant known name
        readUnit content
        if rest.isEmpty && closed then return b else throw .notJson
      else .error (.outOfRange .map)
    | (none, _) :: _ => .error .notJson
    | [] => .error (if isText α then .notJson else .outOfRange .map)
  | _ => .error (if isText α then .notJson else unexpected a)

end Readable

/-- What a record is given as: an object by the names of its fields, an array by their positions. -/
inductive RecordForm where
  | byName
  | byPosition
  deriving DecidableEq, Repr

namespace RecordForm

def require {β : Type} (form : RecordForm) (position : Nat) (name : String) :
    Option β → Except Fault β
  | some b => .ok b
  | none => .error (match form with
    | .byName => .missingField name
    | .byPosition => .wrongLength position)

def optional {β : Type} (form : RecordForm) (position : Nat) (name : String) :
    Option (Option β) → Except Fault (Option β)
  | some b => .ok b
  | none => match form with
    | .byName => .ok none
    | .byPosition => form.require position name none

end RecordForm

/-- How a record is read: each field adds to a draft, which `finish` makes a record of. The fields
stand in the order of their positions. -/
structure RecordReader (α δ β : Type) where
  fields : List (String × (α → δ → Except Fault δ))
  blank : δ
  finish : RecordForm → δ → Except Fault β

namespace RecordReader

variable {α δ β : Type} [Readable α]

open Readable

def field {γ : Type} (name : String) (read : α → Except Fault γ) (put : γ → δ → δ) :
    String × (α → δ → Except Fault δ) :=
  (name, fun a draft => do return put (← read a) draft)

/-- Unknown fields are passed over, known ones must not be repeated. -/
def draftByName (reader : RecordReader α δ β) :
    List (Option String × α) → List String → δ → Except Fault δ
  | [], _, draft => .ok draft
  | (none, _) :: _, _, _ => .error .notJson
  | (some name, a) :: rest, seen, draft =>
    match reader.fields.lookup name with
    | none => if skippable a then reader.draftByName rest seen draft else .error .notJson
    | some read =>
      if name ∈ seen then .error (.duplicateField name)
      else do
        let draft ← read a draft
        reader.draftByName rest (name :: seen) draft

def draftByPosition : List (String × (α → δ → Except Fault δ)) → List α → δ → Except Fault δ
  | (_, read) :: fields, a :: as, draft => do
    let draft ← read a draft
    draftByPosition fields as draft
  | _, _, draft => .ok draft

def read (reader : RecordReader α δ β) (a : α) : Except Fault β :=
  match layer a with
  | .object fields closed => do
    let draft ← reader.draftByName fields [] reader.blank
    if closed then reader.finish .byName draft else throw .notJson
  | .array items closed => do
    let draft ← draftByPosition reader.fields items reader.blank
    if items.length < reader.fields.length && !closed then throw .notJson
    let record ← reader.finish .byPosition draft
    if reader.fields.length < items.length then
      throw (if isText α then .notJson else .wrongLength items.length)
    if closed then return record else throw .notJson
  | _ => .error (unexpected a)

end RecordReader

namespace Readable

variable {α β : Type} [Readable α]

def readTag (known : List (String × β)) (a : α) : Except Fault β :=
  match layer a with
  | .string name => variant known name
  | _ => .error (unexpected a)

def splitTag (tagName : String) (known : List (String × β)) :
    List (Option String × α) → Option β → Except Fault (Option β × List (String × Json))
  | [], tag => .ok (tag, [])
  | (none, _) :: _, _ => .error .notJson
  | (some name, a) :: rest, tag =>
    if name = tagName then
      if tag.isSome then .error (.duplicateField tagName)
      else do splitTag tagName known rest (some (← readTag known a))
    else do
      let value ← readValue a
      let (tag, others) ← splitTag tagName known rest tag
      return (tag, (name, value) :: others)

/-- A form whose tag says what the rest is: an object with the tag among its fields, or an array
with the tag in front. -/
def readTagged (tagName : String) (known : List (String × β)) (a : α) : Except Fault (β × Json) :=
  match layer a with
  | .object fields closed => do
    let (tag, others) ← splitTag tagName known fields none
    if !closed then throw .notJson
    match tag with
    | some tag => return (tag, .object others)
    | none => throw (.missingField tagName)
  | .array [] closed => .error (if closed then .missingField tagName else .notJson)
  | .array (first :: items) closed => do
    let tag ← readTag known first
    let rest ← readItems readValue items
    if closed then return (tag, .array rest) else throw .notJson
  | _ => .error (unexpected a)

end Readable

def readText {β : Type} (read : Document → Except Fault β) (text : String) : Except Fault β :=
  let (document, ends) := Document.ofText Document.depthLimit text
  do
    let b ← read document
    if ends then return b else throw .notJson

end Workflow
