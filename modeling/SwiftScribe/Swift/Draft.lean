import SwiftScribe.Swift.Scribe

/-!
# Drafts

Neither what generation asks nor whether it fails depends on the answers: only the text does. A
`Draft` is a scribe that keeps the two apart. It lists the events of a generation in order, and
gives the result as a function of the answers; that function looks at no answer that was not asked
for (`Draft.reads`).
-/

namespace SwiftScribe.Swift

/-- What generation does beside making text. -/
inductive Event where
  /-- The type of a path is asked for. -/
  | resolve (path : TypePath)
  /-- A placeholder stands for a construct of some kind. -/
  | placeholder (kind : String)
deriving DecidableEq

/-- The path that an event asks for. -/
def Event.path? : Event → Option TypePath
  | .resolve path => some path
  | .placeholder _ => none

/-- The paths that events ask for, in order. -/
def pathsOf (events : List Event) : List TypePath := events.filterMap Event.path?

/-- The types of paths, as far as they are known. -/
abbrev Answers := TypePath → Option String

/-- **A generation before its answers are known.** -/
@[ext]
structure Draft (α : Type) where
  /-- What happens, in order, up to the end or the first failure. -/
  events : List Event
  outcome : Except Unsupported (Answers → α)
  /-- The result depends on the answers to what was asked, and on nothing else. -/
  reads : ∀ f, outcome = .ok f →
    ∀ a b : Answers, (∀ path ∈ pathsOf events, a path = b path) → f a = f b

namespace Draft

variable {α β : Type}

/-- A result that needs nothing. -/
protected def pure (value : α) : Draft α where
  events := []
  outcome := .ok fun _ => value
  reads := by rintro f ⟨⟩ a b _; rfl

/-- The answer for a path. -/
protected def resolve (path : TypePath) : Draft (Option String) where
  events := [.resolve path]
  outcome := .ok fun answers => answers path
  reads := by rintro f ⟨⟩ a b agree; exact agree path (by simp [pathsOf, Event.path?])

protected def fail (construct : Construct) (detail : String) : Draft α where
  events := []
  outcome := .error ⟨construct, detail⟩
  reads := by rintro f ⟨⟩

/-- A result together with an event. -/
def tell (event : Event) (value : α) : Draft α where
  events := [event]
  outcome := .ok fun _ => value
  reads := by rintro f ⟨⟩ a b _; rfl

protected def map (g : α → β) (draft : Draft α) : Draft β where
  events := draft.events
  outcome := draft.outcome.map fun f answers => g (f answers)
  reads := by
    intro f h a b agree
    cases h' : draft.outcome with
    | error e => rw [h'] at h; cases h
    | ok f' =>
      rw [h'] at h
      cases h
      exact congrArg g (draft.reads f' h' a b agree)

/-- One draft after the other; the second is not reached if the first fails. -/
protected def seq (first : Draft (α → β)) (second : Unit → Draft α) : Draft β :=
  match h : first.outcome with
  | .error e => ⟨first.events, .error e, by rintro f ⟨⟩⟩
  | .ok g =>
    { events := first.events ++ (second ()).events
      outcome := (second ()).outcome.map fun f answers => g answers (f answers)
      reads := by
        intro f h₂ a b agree
        cases h' : (second ()).outcome with
        | error e => rw [h'] at h₂; cases h₂
        | ok f' =>
          rw [h'] at h₂
          cases h₂
          simp only [pathsOf, List.filterMap_append, List.mem_append] at agree
          have hg := first.reads g h a b fun path member => agree path (.inl member)
          have hf := (second ()).reads f' h' a b fun path member => agree path (.inr member)
          simp only [hg, hf] }

instance : Scribe Draft where
  pure := Draft.pure
  map := Draft.map
  seq := Draft.seq
  resolve := Draft.resolve
  standIn kind text := .tell (.placeholder kind) text
  fail := Draft.fail

/-- The result under given answers. -/
def run (draft : Draft α) (answers : Answers) : Except Unsupported α :=
  draft.outcome.map fun f => f answers

/-- The paths that are asked for, in order. -/
def paths (draft : Draft α) : List TypePath := pathsOf draft.events

end Draft

end SwiftScribe.Swift
