import SwiftScribe.Proofs.Statements

/-!
# Where a finalizer runs

A `try` with a finalizer becomes a `do` scope in which the finalizer is deferred at the beginning.
In the source the finalizer comes last, behind the handler. What is deferred runs when the scope is
left, and the handler stands behind the scope. So the two orders differ where the handler runs.

* `Course`, `Course.ensuring`, `Course.catching`: what statements do, with a finalizer or a handler
  behind them.
* `tryCourse`, `Swift.DoCatch.course`: what a `try` does in the source, and what a `do` scope does.
* `Swift.Prints.tryStatement`: the scope that a `try` is printed from.
* `Node.generate_finalizer`: **the finalizer runs once and the statement ends as it should**; it
  runs where it should if and only if it does not matter whether the handler comes before it or
  behind.
-/

namespace SwiftScribe

open Swift

/-! ## Courses -/

/-- How statements end. -/
inductive Exit where
  | normal
  | throws
  | returns
  | breaks (label : Option String)
  | continues (label : Option String)
deriving DecidableEq

/-- **What some statements do**: the events that can be seen, in order, and how they end. -/
structure Course (ε : Type) where
  shown : List ε
  exit : Exit
deriving DecidableEq

namespace Course

variable {ε : Type}

/-- Nothing is seen. -/
def stop (exit : Exit) : Course ε := ⟨[], exit⟩

/-- One course, and another one that depends on how the first ends. -/
def andThen (first : Course ε) (next : Exit → Course ε) : Course ε :=
  ⟨first.shown ++ (next first.exit).shown, (next first.exit).exit⟩

/-- **A finalizer behind a course**: it runs however the course ends. If the finalizer does not end
normally itself, its own end counts. -/
def ensuring (course finalizer : Course ε) : Course ε :=
  course.andThen fun exit =>
    finalizer.andThen fun last => stop (if last = .normal then exit else last)

/-- **A handler behind a course**: it runs if the course throws. -/
def catching (course : Course ε) : Option (Course ε) → Course ε
  | none => course
  | some handler => course.andThen fun exit => if exit = .throws then handler else stop exit

variable {course finalizer : Course ε}

theorem shown_ensuring (course finalizer : Course ε) :
    (course.ensuring finalizer).shown = course.shown ++ finalizer.shown := by
  simp [ensuring, andThen, stop]

/-- A finalizer that ends normally does not change how a course ends. -/
theorem exit_ensuring (h : finalizer.exit = .normal) (course : Course ε) :
    (course.ensuring finalizer).exit = course.exit := by
  simp [ensuring, andThen, stop, h]

/-- Nothing is handled where nothing is thrown. -/
theorem catching_of_ne (h : course.exit ≠ .throws) (handler : Option (Course ε)) :
    course.catching handler = course := by
  cases handler with
  | none => rfl
  | some handler => simp [catching, andThen, h, stop]

theorem catching_of_throws (h : course.exit = .throws) (handler : Course ε) :
    course.catching (some handler) = ⟨course.shown ++ handler.shown, handler.exit⟩ := by
  simp [catching, andThen, h]

theorem andThen_stop (course : Course ε) : course.andThen stop = course := by
  simp [andThen, stop]

/-! ### Two orders -/

/-- **A finalizer before the handler or behind it.** If the finalizer ends normally, both orders end
in the same way and show the same events, each as often. Their order is the same as well, unless the
handler runs and does not commute with the finalizer. -/
theorem ensuring_catching (h : finalizer.exit = .normal) (block : Course ε)
    (handler : Option (Course ε)) :
    let behind := (block.catching handler).ensuring finalizer
    let before := (block.ensuring finalizer).catching handler
    before.exit = behind.exit ∧ before.shown.Perm behind.shown ∧
      (before.shown = behind.shown ↔ ∀ other ∈ handler, block.exit = .throws →
        finalizer.shown ++ other.shown = other.shown ++ finalizer.shown) := by
  intro behind before
  have hexit : (block.ensuring finalizer).exit = block.exit := exit_ensuring h block
  by_cases hthrows : block.exit = .throws
  · cases handler with
    | none => exact ⟨rfl, .refl _, by simp [before, behind, catching]⟩
    | some other =>
      have hbefore : before =
          ⟨block.shown ++ finalizer.shown ++ other.shown, other.exit⟩ := by
        rw [← shown_ensuring]
        exact catching_of_throws (hexit.trans hthrows) other
      have hcaught : block.catching (some other) = ⟨block.shown ++ other.shown, other.exit⟩ :=
        catching_of_throws hthrows other
      have hshown : behind.shown = block.shown ++ other.shown ++ finalizer.shown := by
        rw [shown_ensuring, hcaught]
      have hends : behind.exit = other.exit := by rw [exit_ensuring h, hcaught]
      refine ⟨by rw [hbefore, hends], ?_, ?_⟩
      · rw [hbefore, hshown, List.append_assoc, List.append_assoc]
        exact List.perm_append_comm.append_left block.shown
      · rw [hbefore, hshown, List.append_assoc, List.append_assoc, List.append_cancel_left_eq]
        simp [hthrows]
  · have hbefore : before = block.ensuring finalizer :=
      catching_of_ne (by rw [hexit]; exact hthrows) handler
    have hbehind : behind = block.ensuring finalizer := by
      show (block.catching handler).ensuring finalizer = _
      rw [catching_of_ne hthrows]
    rw [hbefore, hbehind]
    exact ⟨rfl, .refl _, iff_of_true rfl fun _ _ hnot => absurd hnot hthrows⟩

end Course

/-- **What a `try` does in the source**: the block, the handler if the block throws, and the
finalizer last. What the bodies do is given. -/
def tryCourse {ε : Type} (run : List Node → Course ε) (block : List Node)
    (handler : Option CatchClause) (finalizer : List Node) : Course ε :=
  ((run block).catching (handler.map fun clause => run clause.body)).ensuring (run finalizer)

/-! ## Generated code -/

namespace Swift

/-- What stands in a scope: statements, or statements that are deferred. -/
inductive Entry where
  | plain (body : List Node)
  | deferred (body : List Node)

/-- **A `do` scope**, and the handler behind it. -/
structure DoCatch where
  entries : List Entry
  handler : Option CatchClause

def Entry.text (code : Node → String) : Entry → String
  | .plain body => stack (texts (statements code body))
  | .deferred body => "defer " ++ braces (stack (texts (statements code body)))

/-- The head of a handler. -/
def catchText : Option Node → String
  | some (.identifier id) => "catch let " ++ identifier id.name
  | _ => "catch"

/-- What follows a scope: its handler, if there is one. -/
def handlerText (code : Node → String) : Option CatchClause → String
  | some ⟨param, body⟩ =>
    " " ++ catchText param ++ " " ++ braces (stack (texts (statements code body)))
  | none => ""

/-- The text of a scope, given the texts of nodes. -/
def DoCatch.text (code : Node → String) (scope : DoCatch) : String :=
  "do " ++ braces (stack (scope.entries.map (Entry.text code))) ++ handlerText code scope.handler

section Runs

variable {ε : Type} (run : List Node → Course ε)

/-- **The entries of a scope.** What is deferred waits for those behind it, however they end; it is
not deferred yet when those before it leave the scope. -/
def scopeCourse : List Entry → Course ε
  | [] => .stop .normal
  | .plain body :: rest =>
    (run body).andThen fun exit => if exit = .normal then scopeCourse rest else .stop exit
  | .deferred body :: rest => (scopeCourse rest).ensuring (run body)

/-- **What a scope does.** The handler runs when the scope has been left by an error. -/
def DoCatch.course (scope : DoCatch) : Course ε :=
  (scopeCourse run scope.entries).catching (scope.handler.map fun clause => run clause.body)

end Runs

/-- **The scope that a `try` becomes**: the finalizer is deferred at its beginning. -/
def tryScope (block : List Node) (handler : Option CatchClause) (finalizer : Option (List Node)) :
    DoCatch :=
  ⟨finalizer.toList.map Entry.deferred ++ [Entry.plain block], handler⟩

/-- The finalizer runs when the block is left, and the handler stands behind both. -/
theorem course_tryScope {ε : Type} (run : List Node → Course ε) (block : List Node)
    (handler : Option CatchClause) (finalizer : List Node) :
    (tryScope block handler (some finalizer)).course run =
      ((run block).ensuring (run finalizer)).catching
        (handler.map fun clause => run clause.body) := by
  have hplain : scopeCourse run [.plain block] = run block := by
    have hstop : (fun exit : Exit => if exit = .normal then Course.stop .normal else .stop exit) =
        (Course.stop : Exit → Course ε) := by
      funext exit
      split
      · rename_i hexit
        rw [hexit]
      · rfl
    show (run block).andThen (fun exit => if exit = .normal then .stop .normal else .stop exit) = _
    rw [hstop, Course.andThen_stop]
  show ((scopeCourse run [.plain block]).ensuring (run finalizer)).catching _ = _
  rw [hplain]
  rfl

/-! ## Printing -/

namespace Prints

variable {answers : Answers} {path : TypePath}

theorem catchHead (param : Option Node) :
    Prints answers (catchText param) (Swift.catchHead param) := by
  unfold Swift.catchHead
  split
  · exact fixed _
  · exact fixed _
  · exact .fail _ _

theorem tryBlock_eq (code : Node → String) (block : List Node) (finalizer : Option (List Node)) :
    tryBlock (finalizer.map fun body => Swift.braces (stack (texts (statements code body))))
        (stack (texts (statements code block))) =
      "do " ++ Swift.braces (stack
        ((finalizer.toList.map Entry.deferred ++ [Entry.plain block]).map (Entry.text code))) := by
  cases finalizer with
  | none => rfl
  | some body =>
    have hdefer : Entry.text code (.deferred body) ≠ "" := by
      intro h
      have hlength := congrArg String.length h
      simp [Entry.text] at hlength
    have hentries : stack [Entry.text code (.deferred body), Entry.text code (.plain block)] =
        "\n".intercalate (Entry.text code (.deferred body) ::
          [Entry.text code (.plain block)].filter (· ≠ "")) := by
      rw [stack, List.filter_cons_of_pos (by simpa using hdefer)]
    show _ = "do " ++ Swift.braces (stack [_, _])
    rw [hentries]
    rfl

/-- **A `try` prints the scope that it becomes.** -/
theorem tryStatement (block : List Node) (handler : Option CatchClause)
    (finalizer : Option (List Node)) :
    Prints answers ((tryScope block handler finalizer).text (Node.textOn answers path))
      (Node.write path (.tryStatement block handler finalizer)) := by
  have hbody (body : List Node) :
      Prints answers (stack (texts (statements (Node.textOn answers path) body)))
        (Scribe.lines (writeAll path body)) := .lines (writeAll_statements answers path body)
  have hhandler : Prints answers (handlerText (Node.textOn answers path) handler)
      (match handler with
        | some ⟨param, body⟩ =>
          pure " " ++ Swift.catchHead param ++ pure " " ++
            (Swift.braces <$> Scribe.lines (writeAll path body))
        | none => pure "") := by
    cases handler with
    | none => exact fixed ""
    | some clause =>
      obtain ⟨param, body⟩ := clause
      exact (((fixed " ").append (catchHead param)).append (fixed " ")).append (hbody body).braces
  unfold Node.write
  refine .seq (.seq (.map (P := (· = finalizer.map fun body =>
    Swift.braces (stack (texts (statements (Node.textOn answers path) body))))) ?finalizer
      fun f hf b hb t ht => ?scope) (hbody block)) hhandler
  case finalizer =>
    cases finalizer with
    | none => exact .pure rfl
    | some body => exact (hbody body).map fun _ ht => by rw [ht]; rfl
  case scope =>
    rw [hf, hb, ht, tryBlock_eq]
    rfl

end Prints

end Swift

namespace Node

/-- **What a `try` with a finalizer becomes**, whatever its bodies do. The text is printed from a
scope in which the finalizer is deferred. Without a handler the scope does what the source does.
With one it ends in the same way and shows the same events, each as often, if the finalizer ends
normally (Swift allows no other end of what is deferred). The events are in the same order as well,
unless the block throws and the handler does not commute with the finalizer. -/
theorem generate_finalizer {path : TypePath} {hints records : HintTable}
    {block finalizer : List Node} {handler : Option CatchClause} {text : String}
    (h : (Node.generate path (.tryStatement block handler (some finalizer)) hints records).1 =
      .ok text) :
    let scope := tryScope block handler (some finalizer)
    scope.text (Node.textOn hints.answer? path) = text ∧
      ∀ (ε : Type) (run : List Node → Course ε),
        let source := tryCourse run block handler finalizer
        let made := scope.course run
        (handler = none → made = source) ∧
        ((run finalizer).exit = .normal → made.exit = source.exit ∧ made.shown.Perm source.shown ∧
          (made.shown = source.shown ↔ ∀ clause ∈ handler, (run block).exit = .throws →
            (run finalizer).shown ++ (run clause.body).shown =
              (run clause.body).shown ++ (run finalizer).shown)) := by
  intro scope
  rw [Node.generate_eq] at h
  refine ⟨(Prints.tryStatement block handler (some finalizer) text h).symm, fun ε run => ?_⟩
  intro source made
  have hmade : made = ((run block).ensuring (run finalizer)).catching
      (handler.map fun clause => run clause.body) := course_tryScope run block handler finalizer
  refine ⟨?_, fun hnormal => ?_⟩
  · rintro rfl
    exact hmade
  · obtain ⟨hexit, hperm, hsame⟩ := Course.ensuring_catching hnormal (run block)
      (handler.map fun clause => run clause.body)
    rw [← hmade] at hexit hperm hsame
    refine ⟨hexit, hperm, hsame.trans ?_⟩
    simp

/-- `catch { g() }` -/
def callHandler : CatchClause := ⟨none, [call "g"]⟩

/-- A body that shows the texts of its statements, and throws if they are these. -/
def runTexts (thrown : List String) (body : List Node) : Course String :=
  let shown := body.map (Node.textOn HintTable.empty.answer? [])
  ⟨shown, if shown = thrown then .throws else .normal⟩

theorem generate_callHandler :
    (Node.generate [] (.tryStatement [call "f"] (some callHandler) (some [call "h"])) .empty
      .empty).1 =
    .ok "do \x7b\ndefer \x7b\nh()\n\x7d\nf()\n\x7d catch \x7b\ng()\n\x7d" := by
  rfl

/-- If nothing is thrown, the finalizer runs where it should. -/
theorem generate_finalizer_unthrown :
    (tryScope [call "f"] (some callHandler) (some [call "h"])).text
        (Node.textOn HintTable.empty.answer? []) =
        "do \x7b\ndefer \x7b\nh()\n\x7d\nf()\n\x7d catch \x7b\ng()\n\x7d" ∧
      ((tryScope [call "f"] (some callHandler) (some [call "h"])).course (runTexts [])).shown =
        ["f()", "h()"] := by
  obtain ⟨htext, hruns⟩ := generate_finalizer generate_callHandler
  obtain ⟨-, -, hsame⟩ := (hruns String (runTexts [])).2 rfl
  refine ⟨htext, (hsame.2 fun clause _ hthrows => ?_).trans rfl⟩
  cases hthrows

/-- **The finalizer runs before the handler** if the block throws, although it should come last. -/
theorem finalizer_before_handler :
    (Node.generate [] (.tryStatement [call "f"] (some callHandler) (some [call "h"])) .empty
        .empty).1 =
        .ok ((tryScope [call "f"] (some callHandler) (some [call "h"])).text
          (Node.textOn HintTable.empty.answer? [])) ∧
      (tryScope [call "f"] (some callHandler) (some [call "h"])).text
          (Node.textOn HintTable.empty.answer? []) =
        "do \x7b\ndefer \x7b\nh()\n\x7d\nf()\n\x7d catch \x7b\ng()\n\x7d" ∧
      (tryCourse (runTexts ["f()"]) [call "f"] (some callHandler) [call "h"]).shown =
        ["f()", "g()", "h()"] ∧
      ((tryScope [call "f"] (some callHandler) (some [call "h"])).course
        (runTexts ["f()"])).shown = ["f()", "h()", "g()"] := by
  exact ⟨generate_callHandler, rfl, rfl, rfl⟩

end Node

end SwiftScribe
