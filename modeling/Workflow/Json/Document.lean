import Workflow.Json.Basic
import Workflow.Json.Numeral

/-!
JSON text as a tree that keeps what a value forgets: the order of fields, repeated fields, and every
fault of the text at its place. Whoever reads the tree from the left meets the faults in the order
in which they stand in the text, among those of its own.
-/

set_option autoImplicit false

namespace Workflow

inductive Document where
  | null
  | bool (value : Bool)
  /-- `none` stands for a literal beyond the greatest float. -/
  | number (value : Option Number)
  /-- `none` stands for a string with half of a surrogate pair. -/
  | string (text : Option String)
  | array (items : List Document) (closed : Bool)
  | object (fields : List (Option String × Document)) (closed : Bool)
  /-- A container nested deeper than the limit. -/
  | unreadable (content : Document)
  | broken
  deriving Inhabited

namespace Document

mutual

/-- The value, of repeated fields the last; `none` if there is a fault anywhere. -/
def value? : Document → Option Json
  | .null => some .null
  | .bool b => some (.bool b)
  | .number n => n.map .number
  | .string text => text.map .string
  | .array items closed => do
    let items ← values? items
    if closed then some (.array items) else none
  | .object fields closed => do
    let fields ← fields? fields
    if closed then some (Json.ofFields fields) else none
  | .unreadable _ | .broken => none

def values? : List Document → Option (List Json)
  | [] => some []
  | item :: items => do return (← value? item) :: (← values? items)

def fields? : List (Option String × Document) → Option (List (String × Json))
  | [] => some []
  | (key, item) :: rest => do return (← key, ← value? item) :: (← fields? rest)

end

mutual

/-- True if the text is well formed, whatever the size of its numbers, its surrogates and its depth.
-/
def wellFormed : Document → Bool
  | .null | .bool _ | .number _ | .string _ => true
  | .array items closed => itemsWellFormed items && closed
  | .object fields closed => fieldsWellFormed fields && closed
  | .unreadable content => wellFormed content
  | .broken => false

def itemsWellFormed : List Document → Bool
  | [] => true
  | item :: items => wellFormed item && itemsWellFormed items

def fieldsWellFormed : List (Option String × Document) → Bool
  | [] => true
  | (_, item) :: rest => wellFormed item && fieldsWellFormed rest

end

inductive Piece where
  | char (c : Char)
  | surrogate (unit : Nat)
  deriving Repr

def hexValue? (c : Char) : Option Nat :=
  if '0' ≤ c ∧ c ≤ '9' then some (c.toNat - 48)
  else if 'a' ≤ c ∧ c ≤ 'f' then some (c.toNat - 87)
  else if 'A' ≤ c ∧ c ≤ 'F' then some (c.toNat - 55)
  else none

def hexPiece? (a b c d : Char) : Option Piece := do
  let high := (← hexValue? a) * 16 + (← hexValue? b)
  let low := (← hexValue? c) * 16 + (← hexValue? d)
  let unit := high * 256 + low
  return if 0xD800 ≤ unit ∧ unit ≤ 0xDFFF then .surrogate unit else .char (Char.ofNat unit)

def escaped? (c : Char) : Option Char :=
  match c with
  | '"' => some '"'
  | '\\' => some '\\'
  | '/' => some '/'
  | 'b' => some '\x08'
  | 'f' => some '\x0c'
  | 'n' => some '\n'
  | 'r' => some '\r'
  | 't' => some '\t'
  | _ => none

def readPieces : List Char → Option (List Piece × List Char)
  | [] => none
  | '"' :: cs => some ([], cs)
  | '\\' :: 'u' :: a :: b :: c :: d :: cs => do
    let piece ← hexPiece? a b c d
    let (pieces, rest) ← readPieces cs
    return (piece :: pieces, rest)
  | '\\' :: c :: cs => do
    let c ← escaped? c
    let (pieces, rest) ← readPieces cs
    return (.char c :: pieces, rest)
  | c :: cs =>
    if c.val < 32 ∨ c = '\\' then none
    else do
      let (pieces, rest) ← readPieces cs
      return (.char c :: pieces, rest)

/-- Surrogates count in pairs only. -/
def join? : List Piece → Option (List Char)
  | [] => some []
  | .char c :: pieces => do return c :: (← join? pieces)
  | .surrogate high :: .surrogate low :: pieces =>
    if high < 0xDC00 ∧ 0xDC00 ≤ low then do
      return Char.ofNat (0x10000 + (high - 0xD800) * 0x400 + (low - 0xDC00)) :: (← join? pieces)
    else none
  | .surrogate _ :: _ => none

def readString (cs : List Char) : Option (Option String × List Char) := do
  let (pieces, rest) ← readPieces cs
  return ((join? pieces).map String.ofList, rest)

def isBlank (c : Char) : Bool := c = ' ' || c = '\n' || c = '\t' || c = '\r'

def skipBlanks (cs : List Char) : List Char := cs.dropWhile isBlank

def wrap (room : Nat) (container : Document) : Document :=
  if room = 0 then .unreadable container else container

mutual

/-- The value in front, and what follows it unless the text breaks off or is faulty there. `room` is
how many levels may still open, `fuel` bounds the calls. -/
def readValue (fuel room : Nat) (cs : List Char) : Document × Option (List Char) :=
  match fuel with
  | 0 => (.broken, none)
  | fuel + 1 =>
    match skipBlanks cs with
    | 'n' :: 'u' :: 'l' :: 'l' :: cs => (.null, some cs)
    | 't' :: 'r' :: 'u' :: 'e' :: cs => (.bool true, some cs)
    | 'f' :: 'a' :: 'l' :: 's' :: 'e' :: cs => (.bool false, some cs)
    | '"' :: cs =>
      match readString cs with
      | some (text, rest) => (.string text, some rest)
      | none => (.broken, none)
    | '[' :: cs =>
      match skipBlanks cs with
      | ']' :: rest => (wrap (room - 1) (.array [] true), some rest)
      | cs =>
        let (items, rest) := readItems fuel (room - 1) cs
        (wrap (room - 1) (.array items rest.isSome), rest)
    | '\x7b' :: cs =>
      match skipBlanks cs with
      | '\x7d' :: rest => (wrap (room - 1) (.object [] true), some rest)
      | cs =>
        let (fields, rest) := readFields fuel (room - 1) cs
        (wrap (room - 1) (.object fields rest.isSome), rest)
    | cs =>
      match Numeral.read cs with
      | some (numeral, rest) => (.number numeral.value?, some rest)
      | none => (.broken, none)

def readItems (fuel room : Nat) (cs : List Char) : List Document × Option (List Char) :=
  match fuel with
  | 0 => ([], none)
  | fuel + 1 =>
    match readValue fuel room cs with
    | (item, none) => ([item], none)
    | (item, some cs) =>
      match skipBlanks cs with
      | ']' :: rest => ([item], some rest)
      | ',' :: cs => let (items, rest) := readItems fuel room cs; (item :: items, rest)
      | _ => ([item], none)

/-- The fields up to the closing brace. They end where something else than a string stands in the
place of a key; a key of `none` stands for a string with half of a surrogate pair. -/
def readFields (fuel room : Nat) (cs : List Char) :
    List (Option String × Document) × Option (List Char) :=
  match fuel with
  | 0 => ([], none)
  | fuel + 1 =>
    match skipBlanks cs with
    | '"' :: cs =>
      match readString cs with
      | none => ([], none)
      | some (key, cs) =>
        match skipBlanks cs with
        | ':' :: cs =>
          match readValue fuel room cs with
          | (value, none) => ([(key, value)], none)
          | (value, some cs) =>
            match skipBlanks cs with
            | '\x7d' :: rest => ([(key, value)], some rest)
            | ',' :: cs =>
              let (fields, rest) := readFields fuel room cs
              ((key, value) :: fields, rest)
            | _ => ([(key, value)], none)
        | _ => ([(key, .broken)], none)
    | _ => ([], none)

end

def depthLimit : Nat := 128

/-- The value at the start of a text, and whether nothing but blanks follows it. Containers from the
level `limit` on are unreadable. -/
def ofText (limit : Nat) (text : String) : Document × Bool :=
  let cs := text.toList
  let (document, rest) := readValue (2 * cs.length + 2) limit cs
  (document, match rest with
    | some rest => (skipBlanks rest).isEmpty
    | none => false)

end Document

def Json.ofText? (limit : Nat) (text : String) : Option Json :=
  match Document.ofText limit text with
  | (document, true) => document.value?
  | (_, false) => none

end Workflow
