import Workflow.Binary64.Basic

/-!
How alike two words are, so that a mistyped word can be answered with the one that was meant.
Letters match if they are equal and stand nearly at the same place; matched letters in another order
count half. All arithmetic is that of binary64 numbers, which decides between words that are equally
alike up to rounding.
-/

set_option autoImplicit false

namespace Workflow.CommandLine

def findMatch? (c : Char) (word : List Char) (taken : List Nat) (low high : Nat) : Option Nat :=
  (word.zipIdx.find? fun (d, j) => low ≤ j && j < high && c = d && !taken.contains j).map Prod.snd

/-- The letters of the first word that find a match in the second, and the places of the matches. -/
def matchLetters (window : Nat) (word : List Char) :
    List (Char × Nat) → List Nat → List Char × List Nat
  | [], taken => ([], taken)
  | (c, i) :: rest, taken =>
    match findMatch? c word taken (i - window) (i + window + 1) with
    | some j =>
      let (letters, taken) := matchLetters window word rest (j :: taken)
      (c :: letters, taken)
    | none => matchLetters window word rest taken

def share (num den : Nat) : Nat := Binary64.roundUnits (num * Binary64.one) den

/-- The mean of the shares of letters that match in each word and of matches in order, in units of
binary64 numbers: between zero and one. -/
def similarity (word name : String) : Nat :=
  let cs := word.toList
  let ds := name.toList
  let window := max cs.length ds.length / 2 - 1
  let (letters, taken) := matchLetters window ds cs.zipIdx []
  let others := (ds.zipIdx.filter fun (_, j) => taken.contains j).map Prod.fst
  let count := letters.length
  let swaps := ((letters.zip others).filter fun (c, d) => c ≠ d).length / 2
  if cs.isEmpty && ds.isEmpty then Binary64.one
  else if count = 0 then 0
  else
    let matched := Binary64.roundUnits (share count cs.length + share count ds.length) 1
    Binary64.roundUnits (Binary64.roundUnits (matched + share (count - swaps) count) 1) 3

/-- Words that are more alike than this may be meant for each other. -/
def likeness : Nat := share 7 10

def insertCandidate (candidate : Nat × String) : List (Nat × String) → List (Nat × String)
  | [] => [candidate]
  | other :: rest =>
    if candidate.1 < other.1 then candidate :: other :: rest
    else other :: insertCandidate candidate rest

def candidates (word : String) (known : List String) : List String :=
  let rated := (known.map fun name => (similarity word name, name)).filter fun candidate =>
    likeness < candidate.1
  (rated.foldl (fun sorted candidate => insertCandidate candidate sorted) []).map Prod.snd

def closest? (word : String) (known : List String) : Option String :=
  (candidates word known).getLast?

end Workflow.CommandLine
