import SwiftScribe.Batch
import SwiftScribe.Command.Basic
import SwiftScribe.Files.Disk
import SwiftScribe.Glob.Expand

/-!
# Carrying out commands

A command first looks at all the files it needs; what it found decides all it will write and whether
it fails in the end (`Command.plan`). Then it writes, in order, until something cannot be written
(`Plan.perform`). So a failure that is found by looking leaves only what was to be written before it.
-/

namespace SwiftScribe

open Files

/-! ## Failures -/

/-- **Why a command fails.** -/
inductive Failure where
  | run (error : RunError)
  | unresolved (error : Glob.ExpandError)
  | unreadable (path : String) (fault : Files.Fault)
  | notJson (path : String) (fault : Json.Fault)
  | notCreated (dir : String) (fault : Files.Fault)
  | notWritten (path : String) (fault : Files.Fault)

/-- What is behind a failed run, beyond its own message. -/
def RunError.causes : RunError → List String
  | .decode error => if error.ancestor?.isSome then [error.error.message] else []
  | .hints (.unreadable _ fault) => [fault.message]
  | _ => []

namespace Failure

/-- The outermost message of a failure. -/
def message : Failure → String
  | .run error => error.message
  | .unresolved _ => "failed to resolve input file paths"
  | .unreadable path _ => "failed to read source file " ++ path
  | .notJson path _ => "failed to parse JSON source file " ++ path
  | .notCreated dir _ => "failed to create " ++ dir
  | .notWritten path _ => "failed to write " ++ path

/-- What is behind a failure, from the outside in. -/
def causes : Failure → List String
  | .run error => error.causes
  | .unresolved error => [error.message]
  | .unreadable _ fault => [fault.message]
  | .notJson _ fault => [fault.message]
  | .notCreated _ fault => [fault.message]
  | .notWritten _ fault => [fault.message]

/-- The line that reports a failure. -/
def report (failure : Failure) : String :=
  "error: " ++ ": ".intercalate (failure.message :: failure.causes) ++ "\n"

/-- The exit code: 2 for a failed run that is bound to fail again, 1 for all else. -/
def exitCode : Failure → Nat
  | .run error => if error.isFatal then 2 else 1
  | _ => 1

end Failure

/-- The exit code of a command, by its failure. -/
def exitCode : Option Failure → Nat
  | none => 0
  | some failure => failure.exitCode

/-! ## Looking -/

variable {m : Type → Type} [Monad m]

/-- The hints of a command. A hint file that is not there holds none. -/
def Inputs.hints (inputs : Inputs) (view : View m) : ExceptT Failure m HintTable := do
  match inputs.types? with
  | none => return .empty
  | some path =>
    if (← view.kind? path).isNone then return .empty
    match ← view.read path with
    | .error fault => throw (.run (.hints (.unreadable path fault)))
    | .ok text =>
      match HintTable.read text with
      | .ok hints => return hints
      | .error error => throw (.run (.hints error))

/-- The name of the source at a path: the name of the file without its last extension. -/
def sourceName (path : String) : String :=
  match name? path with
  | some name => stem name
  | none => path

/-- The source at a path. -/
def readSource (view : View m) (path : String) : ExceptT Failure m Source := do
  match ← view.read path with
  | .error fault => throw (.unreadable path fault)
  | .ok text =>
    match Json.read text with
    | .error fault => throw (.notJson path fault)
    | .ok ast => return { name? := some (sourceName path), ast }

/-- **The sources of a command.** All paths are found before any file is read. -/
def Inputs.sources (inputs : Inputs) (view : View m) : ExceptT Failure m (List Source) := do
  match ← (Glob.expandAll view inputs.patterns).run with
  | .error error => throw (.unresolved error)
  | .ok paths => paths.mapM (readSource view)

/-- The syntax trees of sources by name. -/
def dump (sources : List Source) : Json :=
  .obj (Json.Entries.distinct (sources.map fun source => (source.name?.getD "", source.ast)))

/-! ## Writing -/

/-- **One thing to write.** -/
inductive Step where
  | print (text : String)
  | save (path text : String)

/-- A text goes to a path, or is printed if there is none. -/
def Step.ofPath? (path? : Option String) (text : String) : Step :=
  match path? with
  | some path => .save path text
  | none => .print text

/-- **What a command will do**: what it writes, in order, and how it fails if all of that succeeds. -/
structure Plan where
  steps : List Step
  failure? : Option Failure

/-- What a command writes once it knows its sources and hints. -/
def Command.planOn (command : Command) (hints : HintTable) (sources : List Source) : Plan :=
  match command, runBatch hints sources with
  | .swift inputs typesOut? ast? out?, result =>
    let dumped := ast?.toList.map fun path => Step.save path (dump sources).pretty
    match result with
    | .error error => { steps := dumped, failure? := some (.run error) }
    | .ok output =>
      let learned := (typesOut?.or inputs.types?).toList.map fun path =>
        Step.save path output.records.toJson.pretty
      { steps := dumped ++ [.ofPath? out? output.swift] ++ learned, failure? := none }
  | .types _ _, .error error => { steps := [], failure? := some (.run error) }
  | .types _ out?, .ok output =>
    { steps := [.ofPath? out? output.records.toJson.pretty], failure? := none }

/-- **What a command does on the files it sees.** -/
def Command.plan (command : Command) (view : View m) : m Plan := do
  let found ← ExceptT.run do
    let hints ← command.inputs.hints view
    let sources ← command.inputs.sources view
    return command.planOn hints sources
  match found with
  | .ok plan => return plan
  | .error failure => return { steps := [], failure? := some failure }

/-- Writes one thing, making the directories above it first. -/
def Step.perform (sink : Sink m) : Step → m (Option Failure)
  | .print text => do
    sink.print text
    return none
  | .save path text => do
    match parents path, ← sink.makeDirs (parents path) with
    | dir :: _, .error fault => return some (.notCreated dir fault)
    | _, _ =>
      match ← sink.write path text with
      | .ok () => return none
      | .error fault => return some (.notWritten path fault)

/-- Writes things in order, up to the first that fails. -/
def performAll (sink : Sink m) : List Step → m (Option Failure)
  | [] => return none
  | step :: rest => do
    match ← step.perform sink with
    | some failure => return some failure
    | none => performAll sink rest

/-- **Carries out a plan.** -/
def Plan.perform (sink : Sink m) (plan : Plan) : m (Option Failure) :=
  return (← performAll sink plan.steps).or plan.failure?

/-- **A command on a disk**: how it fails, if it does, and what it leaves behind. -/
def Command.runOn (command : Command) (disk : Disk) : Option Failure × Session :=
  (Id.run (command.plan disk.view)).perform Session.sink |>.run ⟨disk, ""⟩

end SwiftScribe
