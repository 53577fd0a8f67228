import SwiftScribe.Swift.Scribe

/-!
# Live generation

A scribe that works with hints and records at once: a path is looked up in the hints as soon as it
is asked for, and the outcome is noted in the records, which run along through the whole generation
and survive its failure.
-/

namespace SwiftScribe.Swift

/-- **A generation on hints and records.** -/
abbrev Live := ReaderT HintTable (ExceptT Unsupported (StateM HintTable))

namespace Live

/-- **Looks a path up in the hints and notes the outcome in the records.** -/
protected def resolve (path : TypePath) : Live (Option String) := do
  let hints ← read
  modify fun records => hints.note records path
  return hints.answer? path

instance : Scribe Live where
  resolve := Live.resolve
  standIn _ text := pure text
  fail construct detail := throw ⟨construct, detail⟩

/-- The result, and the records after it. -/
def perform {α : Type} (live : Live α) (hints records : HintTable) :
    Except Unsupported α × HintTable :=
  live hints records

end Live

end SwiftScribe.Swift
