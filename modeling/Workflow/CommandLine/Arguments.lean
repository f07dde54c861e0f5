import Workflow.CommandLine.Similarity
import Workflow.Decimal
import Workflow.Run.State

set_option autoImplicit false

namespace Workflow.CommandLine

structure RunOptions where
  outputs : Option String := none
  policy : MatchPolicy := .all
  maxDepth : Nat := 64
  deriving DecidableEq, Repr

inductive Command where
  | validate (script : String)
  | inspect (script : String)
  | run (script : String) (options : RunOptions)
  | payload (script : String)
  deriving DecidableEq, Repr

inductive CommandName where
  | validate
  | inspect
  | run
  | payload
  deriving DecidableEq, Repr

inductive OptionName where
  | outputs
  | policy
  | maxDepth
  deriving DecidableEq, Repr

def CommandName.all : List CommandName := [.validate, .inspect, .run, .payload]

def CommandName.name : CommandName → String
  | .validate => "validate"
  | .inspect => "inspect"
  | .run => "run"
  | .payload => "payload"

def OptionName.all : List OptionName := [.outputs, .policy, .maxDepth]

def OptionName.long : OptionName → String
  | .outputs => "outputs"
  | .policy => "policy"
  | .maxDepth => "max-depth"

def OptionName.short? : OptionName → Option Char
  | .outputs => some 'o'
  | .policy => some 'p'
  | .maxDepth => none

def CommandName.options : CommandName → List OptionName
  | .run => OptionName.all
  | _ => []

def CommandName.ofName? (name : String) : Option CommandName :=
  CommandName.all.find? fun command => command.name = name

inductive Topic where
  | program
  | command (name : CommandName)
  | help
  deriving DecidableEq, Repr

def Topic.find? : Topic → String → Option Topic
  | .program, name =>
    if name = "help" then some .help else (CommandName.ofName? name).map .command
  | _, _ => none

inductive Tip where
  | command (names : List String)
  | withoutDashes
  | option (long : String)
  | optionOf (command : CommandName) (long : String)
  | value (name : String)
  | asValue
  deriving DecidableEq, Repr

inductive Shown where
  | all
  | options (long : List String)
  | choice (long : String)
  deriving DecidableEq, Repr

inductive Refusal where
  | noCommand
  | unknownCommand (name : String) (topic : Topic) (tip : Option Tip)
  | unexpected (argument : String) (topic : Topic) (tip : Option Tip) (shown : Shown)
  | unexpectedValue (value long : String) (topic : Topic) (shown : Shown)
  | missingScript (command : CommandName) (given : List OptionName)
  | missingValue (option : OptionName)
  | repeatedOption (option : OptionName)
  | badPolicy (value : String) (tip : Option Tip)
  | badDepth (value reason : String)
  | help (topic : Topic)
  | version
  deriving DecidableEq, Repr

def unknownCommand (name : String) : Refusal :=
  match candidates name (CommandName.all.map CommandName.name ++ ["help"]) with
  | [] => .unknownCommand name .program none
  | names => .unknownCommand name .program (some (.command names))

def policyNames : List (String × MatchPolicy) := [("all", .all), ("first-match", .firstMatch)]

def readPolicy (value : String) : Except Refusal MatchPolicy :=
  match policyNames.lookup value with
  | some policy => .ok policy
  | none =>
    if value = "" then .error (.missingValue .policy)
    else .error (.badPolicy value ((closest? value (policyNames.map Prod.fst)).map Tip.value))

/-- Why a text is no limit. Its digits are read from the left, so that digits enough for a number
that is too large hide what follows them. -/
def depthFault (value : String) (digits : List Char) : String :=
  if value = "" then "cannot parse integer from empty string"
  else if Decimal.ofDigits (Decimal.takeDigits digits).1 < UInt64.size then
    "invalid digit found in string"
  else "number too large to fit in target type"

def readDepth (value : String) : Except Refusal Nat :=
  let digits := match value.toList with
    | '+' :: digits => digits
    | digits => digits
  match (Decimal.readNat? digits).filter fun n => n < UInt64.size with
  | some n => .ok n
  | none => .error (.badDepth value (depthFault value digits))

/-- An argument that is set when the next one is known. -/
inductive Pending where
  | script (path : String)
  | option (name : OptionName) (value : Option String)
  deriving DecidableEq, Repr

structure Progress where
  script : Option String := none
  options : RunOptions := {}
  given : List OptionName := []
  pending : Option Pending := none

namespace Progress

def set (progress : Progress) (option : OptionName) (value : String) : Except Refusal Progress :=
  if option ∈ progress.given then .error (.repeatedOption option)
  else do
    let options ← match option with
      | .outputs => pure { progress.options with outputs := some value }
      | .policy => do pure { progress.options with policy := ← readPolicy value }
      | .maxDepth => do pure { progress.options with maxDepth := ← readDepth value }
    return { progress with options, given := progress.given ++ [option] }

def settle (progress : Progress) : Except Refusal Progress :=
  match progress.pending with
  | none => .ok progress
  | some (.script path) => .ok { progress with script := some path, pending := none }
  | some (.option name none) => .error (.missingValue name)
  | some (.option name (some value)) => { progress with pending := none }.set name value

def hasScript (progress : Progress) : Bool :=
  match progress.script, progress.pending with
  | some _, _ | none, some (.script _) => true
  | none, _ => false

/-- The options that were given. A pending one is among them if it has a value, but an option with a
second value is not. -/
def named (progress : Progress) : List OptionName :=
  match progress.pending with
  | some (.option name (some _)) =>
    if name ∈ progress.given then progress.given.erase name else progress.given ++ [name]
  | _ => progress.given

/-- What a usage line shows after an unknown option: what was given, and then what was meant. -/
def shown (progress : Progress) (meant : Option String) : Shown :=
  match progress.named.map OptionName.long ++ meant.toList, progress.hasScript with
  | [], false => .all
  | options, _ => .options options.eraseDups

/-- What a usage line shows after an option that takes no value: that option, and what goes with it
as a choice as soon as some of that is set. -/
def shownWith (progress : Progress) (long : String) : Shown :=
  if progress.script.isSome || !progress.given.isEmpty then .choice long else .options [long]

end Progress

inductive Dashed where
  | option (name : OptionName) (value : Option String)
  | help
  | helpWith (value : String)
  | unknownLong (name : String)
  | unknownShort (letter : Char)

def splitLong (text : List Char) : String × Option String :=
  match text.span (· ≠ '=') with
  | (name, []) => (String.ofList name, none)
  | (name, _ :: value) => (String.ofList name, some (String.ofList value))

def readLong (command : CommandName) (text : List Char) : Dashed :=
  match splitLong text with
  | ("help", none) => .help
  | ("help", some value) => .helpWith value
  | (long, value) =>
    match command.options.find? fun option => option.long = long with
    | some option => .option option value
    | none => .unknownLong long

def readShort (command : CommandName) (letter : Char) (value : List Char) : Dashed :=
  if letter = 'h' then .help
  else
    match command.options.find? fun option => option.short? = some letter with
    | some option =>
      .option option (match value with
        | [] => none
        | '=' :: value => some (String.ofList value)
        | value => some (String.ofList value))
    | none => .unknownShort letter

def dashed? (command : CommandName) (argument : String) : Option Dashed :=
  match argument.toList with
  | '-' :: '-' :: text => some (readLong command text)
  | '-' :: letter :: value => some (readShort command letter value)
  | _ => none

def CommandName.closestOption? (command : CommandName) (name : String) : Option String :=
  closest? name (command.options.map OptionName.long ++ ["help"])

def unknownLong (command : CommandName) (progress : Progress) (name : String) : Refusal :=
  let meant := command.closestOption? name
  .unexpected ("--" ++ name) (.command command) (some ((meant.map Tip.option).getD .asValue))
    (progress.shown meant)

def readPlain (command : CommandName) (progress : Progress) (argument : String) :
    Except Refusal Progress :=
  if progress.hasScript then .error (.unexpected argument (.command command) none .all)
  else do return { ← progress.settle with pending := some (.script argument) }

def readDashed (command : CommandName) (progress : Progress) : Dashed → Except Refusal Progress
  | .option name none => do return { ← progress.settle with pending := some (.option name none) }
  | .option name (some value) => do (← progress.settle).set name value
  | .help => do
    let _ ← progress.settle
    throw (.help (.command command))
  | .helpWith value =>
    .error (.unexpectedValue value "help" (.command command) (progress.shownWith "help"))
  | .unknownLong name => .error (unknownLong command progress name)
  | .unknownShort letter =>
    .error (.unexpected (String.ofList ['-', letter]) (.command command) (some .asValue) .all)

def readArguments (command : CommandName) : Bool → List String → Progress → Except Refusal Progress
  | _, [], progress => progress.settle
  | true, argument :: rest, progress => do
    readArguments command true rest (← readPlain command progress argument)
  | false, argument :: rest, progress =>
    if argument = "--" then readArguments command true rest progress
    else
      match dashed? command argument, progress.pending with
      | some dashed, _ => do readArguments command false rest (← readDashed command progress dashed)
      | none, some (.option name none) =>
        readArguments command false rest
          { progress with pending := some (.option name (some argument)) }
      | none, _ => do readArguments command false rest (← readPlain command progress argument)

def Progress.command (name : CommandName) (progress : Progress) : Except Refusal Command :=
  match progress.script with
  | none => .error (.missingScript name progress.given)
  | some script =>
    .ok (match name with
      | .validate => .validate script
      | .inspect => .inspect script
      | .run => .run script progress.options
      | .payload => .payload script)

/-- A long option before any command: it may be meant for one that stands behind it. -/
def unknownBeforeCommand (name : String) (rest : List String) : Refusal :=
  match closest? name ["help", "version"] with
  | some meant => .unexpected ("--" ++ name) .program (some (.option meant)) (.options [meant])
  | none =>
    let tip := rest.findSome? fun argument => do
      let command ← CommandName.ofName? argument
      return Tip.optionOf command (← command.closestOption? name)
    .unexpected ("--" ++ name) .program tip .all

def readLongFirst (text : List Char) (rest : List String) : Refusal :=
  match splitLong text with
  | ("help", none) => .help .program
  | ("version", none) => .version
  | ("help", some value) => .unexpectedValue value "help" .program (.options ["help"])
  | ("version", some value) => .unexpectedValue value "version" .program (.options ["version"])
  | (long, _) => unknownBeforeCommand long rest

def readShortFirst (letter : Char) : Refusal :=
  if letter = 'h' then .help .program
  else if letter = 'V' then .version
  else .unexpected (String.ofList ['-', letter]) .program none .all

def readHelp : Topic → List String → Refusal
  | topic, [] => .help topic
  | topic, name :: rest =>
    match topic.find? name with
    | some inner => readHelp inner rest
    | none => .unknownCommand name topic none

/-- A first argument behind `--`, where no command can stand. -/
def readBehindDashes (argument : String) : Refusal :=
  match Topic.program.find? argument with
  | some _ => .unexpected argument .program (some .withoutDashes) .all
  | none => unknownCommand argument

def Command.ofArguments : List String → Except Refusal Command
  | [] | ["--"] => .error .noCommand
  | "--" :: argument :: _ => .error (readBehindDashes argument)
  | first :: rest =>
    match first.toList with
    | '-' :: '-' :: text => .error (readLongFirst text rest)
    | '-' :: letter :: _ => .error (readShortFirst letter)
    | _ =>
      if first = "help" then .error (readHelp .program rest)
      else
        match CommandName.ofName? first with
        | some name => do (← readArguments name false rest {}).command name
        | none => .error (unknownCommand first)

def Command.files : Command → List String
  | .validate script | .inspect script | .payload script => [script]
  | .run script options => script :: options.outputs.toList

end Workflow.CommandLine
