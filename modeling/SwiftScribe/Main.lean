import SwiftScribe.Command.Arguments
import SwiftScribe.Command.Plan

/-!
# The program

Carries out the command line on the files of the machine.
-/

namespace SwiftScribe

open Files

/-- The fault that an error of the machine stands for. -/
def faultOf : IO.Error → Files.Fault
  | .noFileOrDirectory .. => .notFound
  | .alreadyExists .. => .alreadyExists
  | .inappropriateType _ code details =>
    if code = 20 then .notADirectory else if code = 21 then .isADirectory else .other details
  | .invalidArgument _ code details => if code = 36 then .nameTooLong else .other details
  | error => .other (toString error)

/-- Runs an action, with its error as a fault. -/
def attempt {α : Type} (action : IO α) : IO (Except Files.Fault α) := do
  return (← action.toBaseIO).mapError faultOf

/-- What a path leads to on this machine. -/
def machineKind? (path : String) : IO (Option Files.Kind) := do
  if path == "" then return none
  let place := (← IO.currentDir) / path
  if ← place.isDir then return some .dir
  if ← place.pathExists then return some .file
  return none

/-- Looking at the files of this machine. -/
def machineView : View IO where
  read path := do
    match ← attempt (IO.FS.readBinFile path) with
    | .error fault => return .error fault
    | .ok bytes =>
      match String.fromUTF8? bytes with
      | some text => return .ok text
      | none => return .error .notText
  kind? := machineKind?
  names path := do
    let place := (← IO.currentDir) / path
    return (← attempt place.readDir).map fun entries => entries.toList.map (·.fileName)

/-- Changing the files of this machine, and printing. -/
def machineSink : Sink IO where
  print text := do
    IO.print text
    (← IO.getStdout).flush
  makeDir path := do
    match ← attempt (IO.FS.createDir path) with
    | .ok () => return .ok ()
    | .error fault =>
      if (← machineKind? path) = some .dir then return .ok () else return .error fault
  write path text := attempt (IO.FS.writeFile path text)

/-- Carries out a command line and gives the exit code. -/
def runProgram (arguments : List String) : IO UInt32 := do
  match Command.ofArguments arguments with
  | .error .help =>
    IO.println UsageError.help.message
    return 0
  | .error error =>
    IO.eprintln ("error: " ++ error.message)
    return 2
  | .ok command =>
    let plan ← command.plan machineView
    let failure? ← plan.perform machineSink
    match failure? with
    | some failure => IO.eprint failure.report
    | none => pure ()
    return (exitCode failure?).toUInt32

end SwiftScribe

/-- The entry point. -/
def main (arguments : List String) : IO UInt32 := SwiftScribe.runProgram arguments
