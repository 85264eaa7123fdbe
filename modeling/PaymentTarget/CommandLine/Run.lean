import PaymentTarget.CommandLine.Arguments
import PaymentTarget.CommandLine.Screen
import PaymentTarget.Json.Printer

/-! # Running a command

What a command writes and how it ends. The environment and the files are
functions that the caller provides, so that a run is a value of its inputs.
-/

namespace PaymentTarget

/-- What is found under the name of a file. -/
inductive FileContents where
  /-- Nothing. -/
  | missing
  | directory
  /-- A file that may not be read. -/
  | denied
  /-- A file with these bytes. -/
  | file (bytes : List UInt8)
  deriving Repr, DecidableEq

/-- How a run ends. -/
inductive RunResult where
  /-- The arguments were refused. -/
  | usage
  /-- The command wrote its answer. -/
  | success (output : String)
  /-- The command failed in some context for some cause. -/
  | failure (context cause : String)
  deriving Repr, DecidableEq

namespace RunResult

/-- The exit status. -/
def status : RunResult → Nat
  | .success _ => 0
  | .failure _ _ => 1
  | .usage => 2

/-- What is written to the standard output. -/
def output : RunResult → String
  | .success output => output
  | _ => ""

/-- What the arguments should have been. -/
def usageText : String :=
  "usage: [--network NETWORK] [--no-uri-schemes] [--no-connection-strings] COMMAND\n"
    ++ "  classify TEXT [--json]\n  decide TEXT [--json]\n  inspect TEXT\n"
    ++ "  screen --input FILE [--json]\n"

/-- What is written to the standard error. -/
def errorOutput : RunResult → String
  | .success _ => ""
  | .failure context cause => "Error: " ++ context ++ "\n\nCaused by:\n    " ++ cause ++ "\n"
  | .usage => usageText

/-- The answer that is a value in JSON. -/
def ofJson (j : Json) : RunResult :=
  .success (String.ofList j.print ++ "\n")

end RunResult

/-- The text of a file, or why there is none. -/
def FileContents.text : FileContents → Except String Text
  | .missing => .error "No such file or directory (os error 2)"
  | .directory => .error "Is a directory (os error 21)"
  | .denied => .error "Permission denied (os error 13)"
  | .file bytes =>
      match Text.ofUtf8? bytes with
      | some text => .ok text
      | none => .error "stream did not contain valid UTF-8"

namespace Command

/-- Says what kind of destination a text is, and by which scheme. -/
def runClassify (s : Settings) (text : Text) (json : Bool) : RunResult :=
  let kind := s.classify text
  match s.matchedScheme? text, json with
  | some scheme, true => .ofJson (.object [("kind", kind.toJson), ("scheme", scheme.toJson)])
  | none, true => .ofJson (.object [("kind", kind.toJson)])
  | some scheme, false => .success (kind.name ++ " (" ++ scheme.name ++ ")\n")
  | none, false => .success (kind.name ++ "\n")

/-- An intent in plain words. -/
def intentText : Intent → String
  | .proceed _ kind => "proceed: " ++ kind.name ++ "\n"
  | .reject reason => "reject: " ++ reason.code ++ "\n  " ++ reason.message ++ "\n"

/-- Says whether a send goes on with a text. -/
def runDecide (s : Settings) (text : Text) (json : Bool) : RunResult :=
  let intent := s.decide text
  if json then .ofJson intent.toJson else .success (intentText intent)

/-- Shows what a text says. -/
def runInspect (s : Settings) (text : Text) : RunResult :=
  match s.parse text with
  | .ok destination => .ofJson destination.toJson
  | .error failure => .failure "not a recognized destination" failure.message

/-- Decides every line of a file. -/
def runScreen (s : Settings) (input : Text) (contents : FileContents) (json : Bool) : RunResult :=
  match contents.text with
  | .error cause => .failure ("failed to read " ++ String.ofList input) cause
  | .ok text =>
      let report := ScreenReport.ofContents s input text
      if json then .ofJson report.toJson else .success report.toText

/-- Runs a command under settings. -/
def run (s : Settings) (files : Text → FileContents) : Command → RunResult
  | .classify text json => runClassify s text json
  | .decide text json => runDecide s text json
  | .inspect text => runInspect s text
  | .screen input json => runScreen s input (files input) json

/-- The name of the file that a command reads, if it reads one. -/
def input? : Command → Option Text
  | .screen input _ => some input
  | _ => none

end Command

/-- Runs the command that the arguments ask for, under the settings of the
    environment as the arguments restrict them. -/
def runArguments (arguments : List Text) (environment : String → Option (List UInt8))
    (files : Text → FileContents) : RunResult :=
  match Arguments.read? arguments with
  | none => .usage
  | some invocation =>
      invocation.command.run (invocation.restrict (Settings.ofEnvironment environment)) files

end PaymentTarget
