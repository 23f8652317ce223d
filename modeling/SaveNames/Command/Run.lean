import SaveNames.Command.Invocation
import SaveNames.Command.Report
import SaveNames.DecimalPoint
import SaveNames.Hex
import SaveNames.Settings

/-!
# Running a command line

A command line is run to a *transcript*: an exit code and the two output streams. The settings
come first, from the file that `--config` names if there is one, and the options of the
command line go over them. So a broken settings file is reported whatever the operand is.

* Exit code 0: the result is on the standard output and nothing on the error stream.
* Exit code 1: an error of the library, on the error stream only.
* Exit code 2: the command line made no sense.
* Exit code 101: a buffer was asked for that is longer than any can be, and the run broke off.
-/

namespace SaveNames
namespace Command

/-- What a run leaves behind. -/
structure Transcript where
  exit : UInt8 := 0
  stdout : String := ""
  stderr : String := ""
deriving DecidableEq, Repr

/-! ## Texts -/

/-- The answer to a request for the version. -/
def versionText : String := "g3name 0.1.0\n"

/-- The answer to a request for help. -/
def helpText : String :=
  "Gen III save name codec\n\n" ++
  "Usage: g3name [OPTIONS] <COMMAND>\n\n" ++
  "Commands:\n" ++
  "  decode <HEX> [--strict]\n" ++
  "  encode <TEXT> [--len <LEN>] [--max-chars <MAX_CHARS>] [--pad <PAD>]\n" ++
  "  fixup <HEX>\n\n" ++
  "Options:\n" ++
  "  --config <CONFIG>  --locale <LOCALE>  --korean  --json  -h, --help  -V, --version\n"

/-- The wording of a usage error. -/
def UsageError.message : UsageError → String
  | .unknownArgument text => "unexpected argument '" ++ text ++ "'"
  | .unknownCommand text => "unrecognized subcommand '" ++ text ++ "'"
  | .missingCommand => "a subcommand is required"
  | .missingOperand => "a required argument was not provided"
  | .missingValue opt => "a value is required for '--" ++ opt.name ++ "'"
  | .unexpectedValue opt => "'--" ++ opt.name ++ "' takes no value"
  | .invalidValue opt value => "invalid value '" ++ value ++ "' for '--" ++ opt.name ++ "'"
  | .repeated opt => "'--" ++ opt.name ++ "' cannot be used multiple times"

/-- The transcript of a command line that led to no invocation. -/
def Stop.transcript : Stop → Transcript
  | .help => { stdout := helpText }
  | .version => { stdout := versionText }
  | .usage error => { exit := 2, stderr := "error: " ++ error.message ++ "\n" }

/-! ## Failures -/

/-- Why a task gives no output. -/
inductive Failure
  /-- An input is refused. -/
  | refused (error : NameError)
  /-- No buffer can be as long as the one that was asked for. -/
  | capacityOverflow
deriving DecidableEq, Repr

/-- The transcript of a task that gave no output. -/
def Failure.transcript : Failure → Transcript
  | .refused error => { exit := 1, stderr := "Error: " ++ error.message ++ "\n" }
  | .capacityOverflow => { exit := 101, stderr := "capacity overflow\n" }

/-! ## Tasks -/

/-- The output of a task: a JSON report or the plain result. -/
def output (json : Bool) (report : Json) (plain : Text) : String :=
  if json then report.print .indented else String.ofList plain

/-- Runs a task under settings. -/
def Task.run (settings : Settings) (json : Bool) : Task → Except Failure String
  | .decode dump strict => do
    let data ← (Hex.parse dump.toList).mapError .refused
    let text ← if strict then (decodeChecked settings.locale data).mapError .refused
      else .ok (SaveNames.decode settings.locale data)
    return output json (decodeJson settings.locale dump text) text
  | .encode text len maxChars padding =>
    let padding := padding.getD settings.padding
    match encodeFresh? settings.locale padding maxChars len text.toList with
    | none => .error .capacityOverflow
    | some (buffer, outcome) =>
      let dump := Hex.print buffer
      .ok (output json (encodeJson settings.locale text dump outcome) dump)
  | .fixup dump => do
    let data ← (Hex.parse dump.toList).mapError .refused
    let (buffer, replaced) := replaceDecimalPoints settings.locale settings.korean data
    let dump := Hex.print buffer
    return output json (fixupJson settings.locale settings.korean replaced dump) dump

/-! ## Invocations -/

/-- The settings of an invocation, given what the settings file holds. -/
def Invocation.settings (invocation : Invocation) (file : Settings.FileState) :
    Except NameError Settings := do
  let base ← match invocation.config with
    | some path => Settings.load path file
    | none => .ok {}
  return { base with
    locale := invocation.locale.getD base.locale
    korean := invocation.korean || base.korean }

/-- Runs an invocation, given what the settings file holds. -/
def Invocation.run (invocation : Invocation) (file : Settings.FileState) : Transcript :=
  let result := do
    let settings ← (invocation.settings file).mapError Failure.refused
    invocation.task.run settings invocation.json
  match result with
  | .ok output => { stdout := output ++ "\n" }
  | .error failure => failure.transcript

/-- Runs a command line, given what is found at each path. -/
def run (files : String → Settings.FileState) (arguments : List String) : Transcript :=
  match Invocation.parse arguments with
  | .error stop => stop.transcript
  | .ok invocation => invocation.run ((invocation.config.map files).getD .absent)

end Command
end SaveNames
