import PaymentTarget.CommandLine.Run

/-! # The program

Looks up the environment and the file that the arguments name, runs the
command, and writes what it answers.
-/

namespace PaymentTarget

/-- The variables that settings are taken from, with what they hold. -/
def readEnvironment : IO (List (String × List UInt8)) := do
  let names := [Settings.networkVariable, Settings.uriSchemesVariable,
    Settings.connectionStringsVariable]
  let mut held := []
  for name in names do
    if let some value ← IO.getEnv name then
      held := (name, Text.utf8 value.toList) :: held
  return held

/-- What is found under the name of a file. -/
def readContents (name : String) : IO FileContents := do
  try
    return .file (← IO.FS.readBinFile name).toList
  catch failure =>
    match failure with
    | .permissionDenied .. => return .denied
    | .inappropriateType .. | .illegalOperation .. => return .directory
    | _ => return .missing

/-- The contents of the file that the arguments name, as a function of the name. -/
def readFiles (arguments : List Text) : IO (Text → FileContents) := do
  match (Arguments.read? arguments).bind fun invocation => invocation.command.input? with
  | none => return fun _ => .missing
  | some input =>
      let contents ← readContents (String.ofList input)
      return fun name => if name = input then contents else .missing

end PaymentTarget

open PaymentTarget in
/-- Runs the command that the arguments ask for. -/
def main (arguments : List String) : IO UInt32 := do
  let arguments := arguments.map String.toList
  let environment ← readEnvironment
  let files ← readFiles arguments
  let result := runArguments arguments (fun name => environment.lookup name) files
  IO.print result.output
  IO.eprint result.errorOutput
  return UInt32.ofNat result.status
