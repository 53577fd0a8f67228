import SwiftScribe.Hint.Reader
import SwiftScribe.Node.Decode
import SwiftScribe.Swift.Generate

/-!
# Runs

From syntax trees to Swift text and records. A run on one file decodes its tree and generates the
text on the hints, from empty records. A batch is one run for each source, the records merged in the
order of the sources. What a run logs is told from the events of its draft.
-/

namespace SwiftScribe

open Swift

/-! ## What a draft leaves behind -/

/-- The records after one more event. -/
def HintTable.noteEvent (hints records : HintTable) : Event → HintTable
  | .resolve path => hints.note records path
  | .placeholder _ => records

/-- **The records after the events of a draft**, in order. -/
def HintTable.noteEvents (hints records : HintTable) (events : List Event) : HintTable :=
  events.foldl hints.noteEvent records

/-- What one event logs. -/
def HintTable.eventLogs (hints records : HintTable) : Event → List Log
  | .resolve path => hints.noteLogs records path
  | .placeholder kind =>
    [⟨.warn, "no Swift rendering for " ++ kind ++ "; emitting a placeholder"⟩]

/-- **What the events of a draft log**, in order. -/
def HintTable.logsOf (hints : HintTable) : HintTable → List Event → List Log
  | _, [] => []
  | records, event :: rest =>
    hints.eventLogs records event ++ hints.logsOf (hints.noteEvent records event) rest

/-! ## One file -/

/-- **Why a run fails.** -/
inductive RunError where
  | decode (error : Diagnosed)
  | generate (error : Unsupported)
  | hints (error : HintError)

namespace RunError

/-- Whether another run on the same inputs is bound to fail in the same way. -/
def isFatal : RunError → Bool
  | .decode error => error.error.isFatal
  | .generate _ => true
  | .hints _ => true

def message : RunError → String
  | .decode error => error.message
  | .generate error => error.message
  | .hints error => error.message

end RunError

/-- A syntax tree, and the name of the file it comes from, if it has one. -/
structure Source where
  name? : Option String
  ast : Json

/-- **What a run on one file produces.** -/
structure Output where
  swift : String
  records : HintTable

namespace Source

/-- The path that types are asked for under: the name of the source, if it has one. -/
def path (source : Source) : TypePath := source.name?.toList

/-- The generated text under a headline with the name of the source. -/
def assemble (source : Source) (code : String) : String :=
  match source.name? with
  | some name => "// MARK: - " ++ name ++ "\n\n" ++ code ++ "\n"
  | none => code ++ "\n"

/-- The draft of a source. -/
def draft (source : Source) : Except Diagnosed (Draft String) :=
  (Node.decodeDiagnosed source.ast).map fun node => node.swift source.path

/-- **A run on one source.** -/
def run (hints : HintTable) (source : Source) : Except RunError Output :=
  match Node.decodeDiagnosed source.ast with
  | .error error => .error (.decode error)
  | .ok node =>
    match node.generate source.path hints .empty with
    | (.error error, _) => .error (.generate error)
    | (.ok code, records) => .ok { swift := source.assemble code, records }

/-- How many lines a text has; one that ends a line does not start another. -/
def lineCount (text : String) : Nat :=
  text.toList.count '\n' + (if text.toList.getLast?.all (· == '\n') then 0 else 1)

/-- What a missing key logs. -/
def diagnosisLogs (diagnosed : Diagnosed) : List Log :=
  match diagnosed.error, diagnosed.ancestor? with
  | .keyNotFound key _, some ancestor =>
    [⟨.error, "key `" ++ key ++ "` not found in " ++ ancestor⟩]
  | _, _ => []

/-- **What a run on one source logs.** -/
def logs (hints : HintTable) (source : Source) : List Log :=
  match source.draft with
  | .error error => diagnosisLogs error
  | .ok draft =>
    let finished :=
      match source.run hints with
      | .ok output =>
        [⟨.info, "generated " ++ toString (lineCount output.swift) ++ " lines for "
          ++ source.name?.getD "<input>"⟩]
      | .error _ => []
    hints.logsOf .empty draft.events ++ finished

end Source

/-! ## Batches -/

/-- A run on every source; the first failure decides. -/
def runEach (hints : HintTable) : List Source → Except RunError (List Output)
  | [] => .ok []
  | source :: rest => do
    let output ← source.run hints
    let outputs ← runEach hints rest
    return output :: outputs

/-- Outputs as one: the texts with an empty line between them, the records merged in order. -/
def Output.combine (outputs : List Output) : Output where
  swift := "\n".intercalate (outputs.map Output.swift)
  records := outputs.foldl (fun records output => records.merge output.records) .empty

/-- **A batch of runs.** Every source is run alone, on the same hints. -/
def runBatch (hints : HintTable) (sources : List Source) : Except RunError Output :=
  (runEach hints sources).map Output.combine

end SwiftScribe
