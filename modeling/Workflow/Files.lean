import Workflow.Text.Pieces

set_option autoImplicit false

namespace Workflow

inductive ReadFailure where
  | notFound
  | notADirectory
  | isADirectory
  | nameTooLong
  | other (reason : String)
  deriving DecidableEq, Repr

def ReadFailure.message : ReadFailure → String
  | .notFound => "No such file or directory (os error 2)"
  | .notADirectory => "Not a directory (os error 20)"
  | .isADirectory => "Is a directory (os error 21)"
  | .nameTooLong => "File name too long (os error 36)"
  | .other reason => reason

abbrev Files := String → Except ReadFailure String

/-- Every file has the names that lead to it from the root. Directories are what stands above a file
or above the place from which relative paths lead, that place included. -/
structure FileTree where
  texts : List (List String × String) := []
  here : List String := []

namespace FileTree

def names (path : String) : List String := (Text.pieces '/' path.toList).map String.ofList

def ofFiles (here : List String) (files : List (String × String)) : FileTree where
  texts := files.map fun file => (here ++ names file.1, file.2)
  here := here

def isDirectory (tree : FileTree) (place : List String) : Bool :=
  place.isPrefixOf tree.here || tree.texts.any fun file => place.isPrefixOf file.1

def read (tree : FileTree) (place : List String) : Except ReadFailure String :=
  match tree.texts.lookup place with
  | some text => .ok text
  | none => .error (if tree.isDirectory place then .isADirectory else .notFound)

def enter (place : List String) (name : String) : Except ReadFailure (List String) :=
  if name = "" || name = "." then .ok place
  else if name = ".." then .ok place.dropLast
  else if 255 < name.utf8ByteSize then .error .nameTooLong
  else .ok (place ++ [name])

/-- Only directories can be left again; names lead on from them alone. -/
def follow (tree : FileTree) (place : List String) : List String → Except ReadFailure String
  | [] => tree.read place
  | name :: rest =>
    match tree.read place with
    | .ok _ => .error .notADirectory
    | .error .isADirectory => do follow tree (← enter place name) rest
    | .error failure => .error failure

def files (tree : FileTree) : Files := fun path =>
  if path = "" then .error .notFound
  else if 4095 < path.utf8ByteSize then .error .nameTooLong
  else tree.follow (if path.startsWith "/" then [] else tree.here) (names path)

end FileTree

end Workflow
