import Workflow.CommandLine.Program

set_option autoImplicit false

open Workflow CommandLine

/-- The number of a system error, which may be told with its sign reversed. -/
def errorNumber (code : UInt32) : Nat := min code.toNat (UInt32.size - code.toNat)

def readFailure (error : IO.Error) : ReadFailure :=
  match error with
  | .noFileOrDirectory _ _ _ => .notFound
  | .inappropriateType _ code _ =>
    if errorNumber code = 21 then .isADirectory else .notADirectory
  | .invalidArgument _ code _ =>
    if errorNumber code = 36 then .nameTooLong else .other (toString error)
  | error => .other (toString error)

def readFile (path : String) : IO (Except ReadFailure String) := do
  return (← (IO.FS.readFile path).toBaseIO).mapError readFailure

def main (arguments : List String) : IO UInt32 := do
  let paths := match Command.ofArguments arguments with
    | .ok command => command.files
    | .error _ => []
  let contents ← paths.mapM fun path => do return (path, ← readFile path)
  let files : Files := fun path => (contents.lookup path).getD (.error .notFound)
  let outcome := program files arguments
  IO.print outcome.stdout
  IO.eprint outcome.stderr
  return outcome.status.toUInt32
