import SwiftScribe.Proofs.Labels

/-!
# Braces around a single statement

The body of a branch or of a loop is a block or any other statement. Its code is that of its statements
on lines of their own, whichever it is, so braces around a single statement make no difference.

* `Draft.lines_singleton`: a single part on a line of its own is that part, also if it is empty or fails.
* `Node.spreadOut_braced`, `Node.bodyBlock_braced`: **the code of a body does not show whether it has
  braces.**
* `Node.generate_fill_braced`: nor does that of a branch or loop around it, its failure, or what is left
  in the records.
-/

namespace SwiftScribe

namespace Swift

/-- **A single part on a line of its own is that part.** -/
theorem Draft.lines_singleton (draft : Draft String) : Scribe.lines [draft] = draft := by
  cases ho : draft.outcome with
  | error e =>
    have hfirst : (List.cons <$> draft).outcome = .error e := by
      show draft.outcome.map _ = _
      rw [ho]
      rfl
    obtain ⟨hevents, houtcome⟩ := Draft.events_seq_error hfirst (pure [])
    refine Draft.ext hevents ?_
    show Except.map _ (List.cons <$> draft <*> pure []).outcome = _
    rw [houtcome, ho]
    rfl
  | ok f =>
    have hfirst : (List.cons <$> draft).outcome = .ok fun answers => List.cons (f answers) := by
      show draft.outcome.map _ = _
      rw [ho]
      rfl
    obtain ⟨hevents, houtcome⟩ := Draft.events_seq_ok hfirst (pure [])
    refine Draft.ext (hevents.trans (List.append_nil _)) ?_
    show Except.map _ (List.cons <$> draft <*> pure []).outcome = _
    rw [houtcome, ho]
    exact congrArg Except.ok (funext fun answers => stack_singleton (f answers))

end Swift

open Swift

/-- **A node has the code of a body** as one of its statements in braces. -/
theorem Node.spreadOut_braced {body : Node} (h : ∀ statements, body ≠ .blockStatement statements)
    (path : TypePath) :
    (spreadOut ((Node.blockStatement [body]).blockParts? path)
        ((Node.blockStatement [body]).write path) : Draft String) =
      spreadOut (body.blockParts? path) (body.write path) := by
  have hwhole : (spreadOut (body.blockParts? path) (body.write path) : Draft String) =
      body.write path := by
    cases body with
    | blockStatement statements => exact absurd rfl (h statements)
    | _ => rfl
  rw [hwhole]
  exact Draft.lines_singleton (body.write path)

theorem Node.bodyBlock_braced {body : Node} (h : ∀ statements, body ≠ .blockStatement statements)
    (path : TypePath) :
    (bodyBlock (.blockStatement [body]) ((Node.blockStatement [body]).write path) : Draft String) =
      bodyBlock body (body.write path) := by
  rw [Node.bodyBlock_eq, Node.bodyBlock_eq, Node.spreadOut_braced h]

/-- Braces neither hide a jump to the next iteration nor make one. -/
theorem Node.containsContinue_braced (body : Node) :
    (Node.blockStatement [body]).containsContinue = body.containsContinue := by
  simp [Node.containsContinue, Node.search, searchAll, Node.isContinueOutwards]

/-! ## Places for a body -/

/-- **A branch or loop without its body.** -/
inductive BodyPlace where
  | consequent (test : Node) (alternate : Option Node)
  | alternate (test consequent : Node)
  | whileLoop (test : Node)
  | repeatLoop (test : Node)
  | forLoop (init test update : Option Node)
  | forIn (left right : Node) (each : Bool)
  | forOf (left right : Node)

namespace BodyPlace

/-- The statement with a body in its place. -/
def fill : BodyPlace → Node → Node
  | .consequent test other, body => .ifStatement test body other
  | .alternate test first, body => .ifStatement test first (some body)
  | .whileLoop test, body => .whileStatement test body
  | .repeatLoop test, body => .doWhileStatement body test
  | .forLoop init test update, body => .forStatement init test update body
  | .forIn left right each, body => .forInStatement left right body each
  | .forOf left right, body => .forOfStatement left right body

/-- **Braces are optional** around a statement that is no block. After an `else`, a further `if` would
be a branch of its own with them. -/
def Optional (place : BodyPlace) (body : Node) : Prop :=
  (∀ statements, body ≠ .blockStatement statements) ∧
    ∀ test consequent, place = .alternate test consequent →
      ∀ inner first second, body ≠ .ifStatement inner first second

end BodyPlace

/-- After an `else`, what is no further branch is a body. -/
theorem Node.elseBlock_eq {alternate : Node}
    (h : ∀ test consequent other, alternate ≠ .ifStatement test consequent other)
    (code : Draft String) : elseBlock alternate code = bodyBlock alternate code := by
  cases alternate with
  | ifStatement test consequent other => exact absurd rfl (h test consequent other)
  | _ => rfl

/-- **Braces around a body do not change the draft** of the branch or loop. -/
theorem Node.swift_fill_braced (place : BodyPlace) {body : Node} (h : place.Optional body)
    (path : TypePath) :
    (place.fill (.blockStatement [body])).swift path = (place.fill body).swift path := by
  have hblock := Node.bodyBlock_braced h.1 path
  unfold Node.swift
  cases place with
  | alternate test consequent =>
    have helse := hblock.trans (Node.elseBlock_eq (h.2 test consequent rfl) (body.write path)).symm
    unfold BodyPlace.fill Node.write
    exact congrArg (fun code => _ ++ (pure " else " ++ code)) helse
  | forLoop init test update =>
    unfold BodyPlace.fill Node.write
    rw [Node.spreadOut_braced h.1, Node.containsContinue_braced]
  | _ =>
    unfold BodyPlace.fill Node.write
    rw [hblock]

/-- **Braces around a body are immaterial**: the text of the branch or loop is the same, or its failure,
and so are the records after it, on any hints and whatever was recorded before. -/
theorem Node.generate_fill_braced (place : BodyPlace) {body : Node} (h : place.Optional body)
    (path : TypePath) (hints records : HintTable) :
    (place.fill (.blockStatement [body])).generate path hints records =
      (place.fill body).generate path hints records := by
  rw [Node.generate_eq, Node.generate_eq, Node.swift_fill_braced place h]

/-- A function in the body of a C-style `for`, whose update is deferred for a jump in a branch of it. -/
theorem Node.generate_fill_braced_for :
    let name (text : String) : Node := .identifier ⟨text⟩
    let place := BodyPlace.forLoop none (some (name "t")) (some (name "u"))
    let body : Node := .ifStatement (name "a") (.continueStatement none)
      (some (.functionDeclaration ⟨some ⟨"f"⟩, [name "x"], [], false, false, false⟩))
    place.Optional body ∧
      (place.fill (.blockStatement [body])).generate ["g"] .empty .empty =
        (place.fill body).generate ["g"] .empty .empty := by
  intro name place body
  have h : place.Optional body := ⟨by simp [body], by simp [place]⟩
  exact ⟨h, generate_fill_braced place h ["g"] .empty .empty⟩

end SwiftScribe
