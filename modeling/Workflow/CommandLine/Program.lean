import Workflow.CommandLine.Arguments
import Workflow.Flow
import Workflow.Run.Replay
import Workflow.Text.Plain
import Workflow.Trace.Text

set_option autoImplicit false

namespace Workflow.CommandLine

structure Outcome where
  status : Nat := 0
  stdout : String := ""
  stderr : String := ""
  deriving DecidableEq, Repr

def programName : String := "demoswork-cli"

def about : String :=
  "A workflow script engine that builds, validates, serializes and executes conditional " ++
    "cross-chain step scripts"

def versionText : String := "demoswork 0.1.0\n"

def OptionName.text : OptionName → String
  | .outputs => "--outputs <OUTPUTS>"
  | .policy => "--policy <POLICY>"
  | .maxDepth => "--max-depth <MAX_DEPTH>"

def optionText (long : String) : String :=
  match OptionName.all.find? fun option => option.long = long with
  | some option => option.text
  | none => "--" ++ long

def Topic.path : Topic → List String
  | .program => [programName]
  | .command name => [programName, name.name]
  | .help => [programName, "help"]

def Topic.operand : Topic → String
  | .program => "<COMMAND>"
  | .command _ => "<SCRIPT_PATH>"
  | .help => "[COMMAND]..."

def Topic.choice : Topic → String
  | .command name =>
    "<" ++ "|".intercalate ("SCRIPT_PATH" :: name.options.map OptionName.text) ++ ">"
  | topic => topic.operand

def Topic.options : Topic → List String
  | .command name => if name.options.isEmpty then [] else ["[OPTIONS]"]
  | _ => []

def usageLine (topic : Topic) (options : List String) (operand : String) : String :=
  "Usage: " ++ " ".intercalate (topic.path ++ options ++ [operand])

def usage (topic : Topic) : Shown → String
  | .all => usageLine topic topic.options topic.operand
  | .options options => usageLine topic (options.map optionText) topic.operand
  | .choice long => usageLine topic [optionText long] topic.choice

def CommandName.about : CommandName → String
  | .validate => "Check a script for structural errors"
  | .inspect => "Print a script as a tree"
  | .run => "Execute a script against recorded step outputs"
  | .payload => "Print the transaction data array embedding the script"

def Topic.about : Topic → String
  | .program => CommandLine.about
  | .command name => name.about
  | .help => "Print this message or the help of the given subcommand(s)"

def Topic.details : Topic → String
  | .program =>
    "Commands:\n" ++
      "  validate  Check a script for structural errors\n" ++
      "  inspect   Print a script as a tree\n" ++
      "  run       Execute a script against recorded step outputs\n" ++
      "  payload   Print the transaction data array embedding the script\n" ++
      "  help      Print this message or the help of the given subcommand(s)\n" ++
      "\nOptions:\n  -h, --help     Print help\n  -V, --version  Print version\n"
  | .command .run =>
    "Arguments:\n  <SCRIPT_PATH>  Path to the script JSON file\n\nOptions:\n" ++
      "  -o, --outputs <OUTPUTS>      JSON object mapping step UIDs to their outputs\n" ++
      "  -p, --policy <POLICY>        Which matching conditions of an operation run their work " ++
      "[default: all] [possible values: all, first-match]\n" ++
      "      --max-depth <MAX_DEPTH>  Limit on nested operations and condition references " ++
      "[default: 64]\n" ++
      "  -h, --help                   Print help\n"
  | .command _ =>
    "Arguments:\n  <SCRIPT_PATH>  Path to the script JSON file\n\n" ++
      "Options:\n  -h, --help  Print help\n"
  | .help => "Arguments:\n  [COMMAND]...  Print help for the subcommand(s)\n"

def helpText (topic : Topic) : String :=
  topic.about ++ "\n\n" ++ usage topic .all ++ "\n\n" ++ topic.details

def possiblePolicies : String := "  [possible values: all, first-match]"

/-- Quoted, without what a terminal would not show. -/
def inQuotes (text : String) : String := "'" ++ Text.plain text ++ "'"

def similarText (what : String) : List String → String
  | [name] => "a similar " ++ what ++ " exists: " ++ inQuotes name
  | names => "some similar " ++ what ++ "s exist: " ++ ", ".intercalate (names.map inQuotes)

def Tip.text (argument : String) : Tip → String
  | .command names => similarText "subcommand" names
  | .withoutDashes =>
    "subcommand " ++ inQuotes argument ++ " exists; to use it, remove the '--' before it"
  | .option long => similarText "argument" ["--" ++ long]
  | .optionOf owner long => inQuotes (owner.name ++ " --" ++ long) ++ " exists"
  | .value name => similarText "value" [name]
  | .asValue =>
    "to pass " ++ inQuotes argument ++ " as a value, use " ++ inQuotes ("-- " ++ argument)

def tipText (argument : String) : Option Tip → String
  | some tip => "\n\n  tip: " ++ tip.text argument
  | none => ""

def Refusal.text : Refusal → String
  | .unknownCommand name topic tip =>
    "unrecognized subcommand " ++ inQuotes name ++ tipText name tip ++ "\n\n" ++ usage topic .all
  | .unexpected argument topic tip shown =>
    "unexpected argument " ++ inQuotes argument ++ " found" ++ tipText argument tip ++ "\n\n" ++
      usage topic shown
  | .unexpectedValue value long topic shown =>
    "unexpected value " ++ inQuotes value ++ " for " ++ inQuotes (optionText long) ++
      " found; no more were expected\n\n" ++ usage topic shown
  | .missingScript command given =>
    "the following required arguments were not provided:\n  <SCRIPT_PATH>\n\n" ++
      usage (.command command) (.options (given.map OptionName.long))
  | .missingValue option =>
    "a value is required for " ++ inQuotes option.text ++ " but none was supplied" ++
      if option = .policy then "\n" ++ possiblePolicies else ""
  | .repeatedOption option =>
    "the argument " ++ inQuotes option.text ++ " cannot be used multiple times\n\n" ++
      usage (.command .run) .all
  | .badPolicy value tip =>
    "invalid value " ++ inQuotes value ++ " for " ++ inQuotes OptionName.policy.text ++ "\n" ++
      possiblePolicies ++ tipText value tip
  | .badDepth value reason =>
    "invalid value " ++ inQuotes value ++ " for " ++ inQuotes OptionName.maxDepth.text ++ ": " ++
      reason
  | .noCommand | .help _ | .version => ""

def Refusal.advice : Refusal → String
  | .unknownCommand _ .help _ => ""
  | _ => "\nFor more information, try '--help'.\n"

def Refusal.outcome : Refusal → Outcome
  | .noCommand => { status := 2, stderr := helpText .program }
  | .help topic => { stdout := helpText topic }
  | .version => { stdout := versionText }
  | refusal => { status := 2, stderr := "error: " ++ refusal.text ++ "\n" ++ refusal.advice }

def failure (printed message : String) : Outcome :=
  { status := 1, stdout := printed, stderr := "\nError: " ++ message ++ "\n" }

def readOutputs (files : Files) (path : String) : Except FlowError Replay :=
  match files path with
  | .ok text => (Replay.ofText text).mapError .json
  | .error failure => .error (.file path failure)

def loadScript (files : Files) (path : String) : Except Outcome Flow :=
  (Flow.loadFile files path).mapError fun error =>
    failure "" ("Failed to load script '" ++ path ++ "': " ++ error.message)

def loadOutputs (files : Files) (path : String) : Except Outcome Replay :=
  (readOutputs files path).mapError fun error =>
    failure "" ("Failed to load step outputs from '" ++ path ++ "': " ++ error.message)

def successOutput : Json :=
  .object [("output", .object [("result", .string "success")])]

def recordsText (records : List TraceRecord) : String :=
  if records.isEmpty then "(no conditions evaluated)" else TraceRecord.textOfAll records

def resultsText (results : Table Json) : String :=
  String.join (results.entries.map fun entry => entry.1 ++ ": " ++ entry.2.compact ++ "\n")

def runScript (flow : Flow) (replay : Replay) (options : RunOptions) : Outcome :=
  let notice := match options.outputs with
    | some _ => ""
    | none => "No outputs file provided. Every step will report success.\n"
  let executor : Executor Unit := {
    defaultRunner := some (replay.withFallback successOutput).runner
    policy := options.policy
    maxDepth := options.maxDepth }
  match (flow.execute executor ()).1 with
  | .error error => failure notice ("Execution failed: " ++ error.message)
  | .ok flow =>
    { stdout := notice ++ "\n--- Condition Trace ---\n" ++ recordsText flow.records ++
        "\n\n--- Results ---\n" ++ resultsText flow.results }

def Command.outcome (files : Files) : Command → Except Outcome Outcome
  | .validate script => do
    let flow ← loadScript files script
    match flow.validate with
    | .ok () => return { stdout := "Script '" ++ script ++ "' is valid.\n" }
    | .error error => throw (failure "" error.message)
  | .inspect script => do
    let flow ← loadScript files script
    return { stdout := flow.script.display }
  | .run script options => do
    let flow ← loadScript files script
    let replay ← match options.outputs with
      | some path => loadOutputs files path
      | none => pure {}
    return runScript flow replay options
  | .payload script => do
    let flow ← loadScript files script
    match flow.payload with
    | .ok data => return { stdout := data.sorted.pretty 0 ++ "\n" }
    | .error error => throw (failure "" error.message)

def program (files : Files) (arguments : List String) : Outcome :=
  match Command.ofArguments arguments with
  | .error refusal => refusal.outcome
  | .ok command =>
    match command.outcome files with
    | .ok outcome => outcome
    | .error outcome => outcome

end Workflow.CommandLine
