import SwiftScribe.Proofs.Statements

/-!
# Labelled jumps in a text

Which statements a jump stands in cannot be seen from a string. An `Outline` is a text together with
what matters for labelled jumps: the statements that a label may be attached to, the jumps inside,
and the functions, which no jump leaves. Outlines are put together as texts are.

* `Outline`, `Outline.text`, `Outline.skips`: the labelled `continue`s of a text, and the labelled
  statements around each. A jump is inside a statement if it is between its braces.
* `Outline.keeps`: **what is around a jump is a part of the outline**: the label, directly before a
  statement that has the jump between its braces.
* `Outline.Keeps.surrounds`: the text then has the label directly before the statement.
-/

namespace SwiftScribe.Swift

/-! ## Outlines -/

/-- **What a loop is written as.** A C-style `for` becomes a scope with a loop inside. -/
inductive Shape where
  | whileLoop
  | repeatLoop
  | forLoop
  | scope
deriving DecidableEq

/-- The word that a statement begins with. -/
def Shape.keyword : Shape → String
  | .whileLoop => "while"
  | .repeatLoop => "repeat"
  | .forLoop => "for"
  | .scope => "do"

/-- **The text of a statement**, from its test or head and from what stands between its braces. A scope
has no head. -/
def Shape.write : Shape → String → String → String
  | .whileLoop, test, body => "while " ++ test ++ " " ++ braces body
  | .repeatLoop, test, body => "repeat " ++ braces body ++ " while " ++ test
  | .forLoop, head, body => "for " ++ head ++ " " ++ braces body
  | .scope, _, body => "do " ++ braces body

/-- A statement begins with its word. -/
theorem Shape.write_keyword (shape : Shape) (head body : String) :
    ∃ rest, shape.write head body = shape.keyword ++ " " ++ rest := by
  cases shape with
  | whileLoop => exact ⟨head ++ " " ++ braces body, by simp [write, keyword, ← String.append_assoc]⟩
  | repeatLoop =>
    exact ⟨braces body ++ " while " ++ head, by simp [write, keyword, ← String.append_assoc]⟩
  | forLoop => exact ⟨head ++ " " ++ braces body, by simp [write, keyword, ← String.append_assoc]⟩
  | scope => exact ⟨braces body, by simp [write, keyword]⟩

/-- The statements with a label around a place, from the inside, as far as the function reaches. -/
abbrev Around := List (String × Shape)

/-- What is around a place inside of a statement, which has a label attached or none. -/
def enter (attached : Option String) (shape : Shape) (around : Around) : Around :=
  (attached.map fun label => (label, shape)).toList ++ around

/-- **A `continue` to a label**, and the statements with a label around it. -/
structure Skip where
  label : String
  around : Around
deriving DecidableEq

/-- The jumps of something, depending on what is around it. -/
abbrev Jumps := Around → List Skip

/-- **A text with its labelled jumps.** -/
inductive Outline where
  /-- Text without labelled jumps. -/
  | plain (text : String)
  | both (front back : Outline)
  /-- One thing above another, on lines of their own. -/
  | above (front back : Outline)
  | braces (body : Outline)
  | skip (label : String)
  /-- A label, directly before a statement. -/
  | labeled (label : String) (body : Outline)
  | whileLoop (test body : Outline)
  | repeatLoop (body test : Outline)
  | forLoop (head body : Outline)
  | scope (body : Outline)
  /-- A function or closure. Labels outside do not reach into it. -/
  | function (content : Outline)

instance : Coe String Outline := ⟨.plain⟩

instance : Append Outline := ⟨.both⟩

namespace Outline

/-- The text itself. -/
def text : Outline → String
  | plain text => text
  | both front back => front.text ++ back.text
  | above front back => stack [front.text, back.text]
  | braces body => Swift.braces body.text
  | skip label => "continue " ++ label
  | labeled label body => label ++ ": " ++ body.text
  | whileLoop test body => Shape.whileLoop.write test.text body.text
  | repeatLoop body test => Shape.repeatLoop.write test.text body.text
  | forLoop head body => Shape.forLoop.write head.text body.text
  | scope body => Shape.scope.write "" body.text
  | function content => content.text

/-- **The labelled jumps**, from a label that is directly before and from what is around. A statement
is around what stands between its braces, and not around its test or head. -/
def skips : Outline → Option String → Jumps
  | plain _, _, _ => []
  | both front back, _, around => front.skips none around ++ back.skips none around
  | above front back, _, around => front.skips none around ++ back.skips none around
  | braces body, _, around => body.skips none around
  | skip label, _, around => [⟨label, around⟩]
  | labeled label body, _, around => body.skips (some label) around
  | whileLoop test body, attached, around =>
    test.skips none around ++ body.skips none (enter attached .whileLoop around)
  | repeatLoop body test, attached, around =>
    body.skips none (enter attached .repeatLoop around) ++ test.skips none around
  | forLoop head body, attached, around =>
    head.skips none around ++ body.skips none (enter attached .forLoop around)
  | scope body, attached, around => body.skips none (enter attached .scope around)
  | function content, _, _ => content.skips none []

/-- **A statement of some shape**, from its test or head and from what stands between its braces. -/
def statement : Shape → Outline → Outline → Outline
  | .whileLoop, test, body => whileLoop test body
  | .repeatLoop, test, body => repeatLoop body test
  | .forLoop, head, body => forLoop head body
  | .scope, _, body => scope body

/-- The labels that are jumped to. A function keeps its jumps to itself. -/
def targets : Outline → List String
  | plain _ => []
  | both front back => front.targets ++ back.targets
  | above front back => front.targets ++ back.targets
  | braces body => body.targets
  | skip label => [label]
  | labeled _ body => body.targets
  | whileLoop test body => test.targets ++ body.targets
  | repeatLoop body test => body.targets ++ test.targets
  | forLoop head body => head.targets ++ body.targets
  | scope body => body.targets
  | function _ => []

/-- What an outline is put together from. -/
def parts : Outline → List Outline
  | plain _ => []
  | both front back => [front, back]
  | above front back => [front, back]
  | braces body => [body]
  | skip _ => []
  | labeled _ body => [body]
  | whileLoop test body => [test, body]
  | repeatLoop body test => [body, test]
  | forLoop head body => [head, body]
  | scope body => [body]
  | function content => [content]

/-- **A piece of an outline**, at any depth. -/
inductive Within (piece : Outline) : Outline → Prop
  | whole : Within piece piece
  | part {outline part : Outline} (member : part ∈ outline.parts) (h : Within piece part) :
    Within piece outline

/-- **A jump stands in a labelled statement of an outline:** the label is directly before a statement
of some shape, and the jump between the braces of that statement. -/
def Keeps (outline : Outline) (label : String) (shape : Shape) (target : String) : Prop :=
  ∃ head body, Within (labeled label (statement shape head body)) outline ∧ target ∈ body.targets

end Outline

/-! ## What is around a jump -/

namespace Outline

section Known

variable {outline inner : Outline} {attached : Option String} {around : Around}
  {label target : String} {shape : Shape}

theorem Keeps.part (h : inner.Keeps label shape target) (hm : inner ∈ outline.parts) :
    outline.Keeps label shape target := by
  obtain ⟨head, body, hwithin, htarget⟩ := h
  exact ⟨head, body, .part hm hwithin, htarget⟩

theorem mem_parts_statement (shape : Shape) (head body : Outline) :
    body ∈ (statement shape head body).parts := by
  cases shape <;> simp [statement, parts]

theorem mem_targets_statement (shape : Shape) (head : Outline) (h : target ∈ outline.targets) :
    target ∈ (statement shape head outline).targets := by
  cases shape <;> simp [statement, targets, h]

/-- What is known of a labelled statement around a jump: it is around the whole, or the whole itself
with a label directly before it, or it is a piece of the outline. -/
def Known (outline : Outline) (attached : Option String) (around : Around) (label : String)
    (shape : Shape) (target : String) : Prop :=
  ((label, shape) ∈ around ∧ target ∈ outline.targets) ∨
    (attached = some label ∧ ∃ head body, outline = statement shape head body ∧
      target ∈ body.targets) ∨
    outline.Keeps label shape target

/-- A part that no label is attached to. -/
theorem Known.part (h : Known inner none around label shape target) (hm : inner ∈ outline.parts)
    (ht : target ∈ inner.targets → target ∈ outline.targets) :
    Known outline attached around label shape target := by
  rcases h with ⟨hin, htarget⟩ | ⟨hno, -⟩ | hkeeps
  · exact .inl ⟨hin, ht htarget⟩
  · cases hno
  · exact .inr (.inr (hkeeps.part hm))

/-- **What stands between the braces of a statement.** The label directly before the statement is the
one that the statement adds to what is around. -/
theorem Known.inside {own : Shape} (head : Outline)
    (h : Known inner none (enter attached own around) label shape target) :
    Known (statement own head inner) attached around label shape target := by
  rcases h with ⟨hin, htarget⟩ | ⟨hno, -⟩ | hkeeps
  · rcases List.mem_append.1 hin with hown | hin
    · cases attached with
      | none => cases hown
      | some first =>
        obtain ⟨rfl, rfl⟩ : label = first ∧ shape = own := by simpa using hown
        exact .inr (.inl ⟨rfl, head, inner, rfl, htarget⟩)
    · exact .inl ⟨hin, mem_targets_statement own head htarget⟩
  · cases hno
  · exact .inr (.inr (hkeeps.part (mem_parts_statement own head inner)))

end Known

/-- **What is around a jump is known.** -/
theorem known {outline : Outline} {attached : Option String} {around : Around} {found : Skip}
    {label : String} {shape : Shape} (h : found ∈ outline.skips attached around)
    (hl : (label, shape) ∈ found.around) :
    Known outline attached around label shape found.label := by
  -- by induction on the outline, for whatever is around it; only a statement adds to that
  induction outline generalizing attached around with
  | plain => cases h
  | both front back ihf ihb =>
    rcases List.mem_append.1 h with h | h
    · exact (ihf h).part List.mem_cons_self (List.mem_append_left _)
    · exact (ihb h).part (.tail _ List.mem_cons_self) (List.mem_append_right _)
  | above front back ihf ihb =>
    rcases List.mem_append.1 h with h | h
    · exact (ihf h).part List.mem_cons_self (List.mem_append_left _)
    · exact (ihb h).part (.tail _ List.mem_cons_self) (List.mem_append_right _)
  | braces body ih => exact (ih h).part List.mem_cons_self id
  | skip =>
    rw [List.mem_singleton.1 h] at hl ⊢
    exact .inl ⟨hl, List.mem_cons_self⟩
  | labeled own body ih =>
    rcases ih h with hin | ⟨hown, head, inner, hbody, htarget⟩ | hkeeps
    · exact .inl hin
    · -- the label meets the statement that took it
      obtain rfl : own = label := Option.some.inj hown
      exact .inr (.inr ⟨head, inner, hbody ▸ .whole, htarget⟩)
    · exact .inr (.inr (hkeeps.part List.mem_cons_self))
  | whileLoop test body iht ihb =>
    rcases List.mem_append.1 h with h | h
    · exact (iht h).part List.mem_cons_self (List.mem_append_left _)
    · exact (ihb h).inside test
  | repeatLoop body test ihb iht =>
    rcases List.mem_append.1 h with h | h
    · exact (ihb h).inside test
    · exact (iht h).part (.tail _ List.mem_cons_self) (List.mem_append_right _)
  | forLoop head body ihh ihb =>
    rcases List.mem_append.1 h with h | h
    · exact (ihh h).part List.mem_cons_self (List.mem_append_left _)
    · exact (ihb h).inside head
  | scope body ih => exact (ih h).inside ""
  | function content ih =>
    -- nothing is around inside of a function, so the statement is a piece of it
    rcases ih h with ⟨hin, -⟩ | ⟨hno, -⟩ | hkeeps
    · cases hin
    · cases hno
    · exact .inr (.inr (hkeeps.part List.mem_cons_self))

/-- **What is around a jump is a part of the outline.** -/
theorem keeps {outline : Outline} {found : Skip} {label : String} {shape : Shape}
    (h : found ∈ outline.skips none []) (hl : (label, shape) ∈ found.around) :
    outline.Keeps label shape found.label := by
  rcases known h hl with ⟨hin, -⟩ | ⟨hno, -⟩ | hkeeps
  · cases hin
  · cases hno
  · exact hkeeps

end Outline

/-! ## What stands in a text -/

/-- A text with a piece in it. -/
def Includes (text piece : String) : Prop := ∃ front back, text = front ++ piece ++ back

/-- Whether a piece is in a text, tried at one place after the other. -/
def occurs (piece : List Char) : List Char → Bool
  | [] => piece.isEmpty
  | c :: rest => piece.isPrefixOf (c :: rest) || occurs piece rest

namespace Includes

variable {text piece : String}

theorem self (text : String) : Includes text text := ⟨"", "", by simp⟩

theorem after (front : String) (h : Includes text piece) : Includes (front ++ text) piece := by
  obtain ⟨before, behind, rfl⟩ := h
  exact ⟨front ++ before, behind, by simp only [String.append_assoc]⟩

theorem before (back : String) (h : Includes text piece) : Includes (text ++ back) piece := by
  obtain ⟨front, behind, rfl⟩ := h
  exact ⟨front, behind ++ back, by simp only [String.append_assoc]⟩

theorem trans {inner : String} (h : Includes text inner) (hi : Includes inner piece) :
    Includes text piece := by
  obtain ⟨front, back, rfl⟩ := h
  exact (hi.after front).before back

theorem braces (h : Includes text piece) : Includes (braces text) piece := by
  unfold Swift.braces
  split
  · rename_i hempty
    obtain ⟨front, back, hsplit⟩ := h
    have hnothing : front ++ piece ++ back = "" := hsplit.symm.trans hempty
    obtain ⟨⟨-, hpiece⟩, -⟩ : (front = "" ∧ piece = "") ∧ back = "" := by simpa using hnothing
    rw [hpiece]
    exact ⟨_, "", by simp; rfl⟩
  · exact (h.after _).before _

/-- Two texts on lines of their own have at most a line break between them. -/
theorem stack_pair (front back : String) : ∃ gap, stack [front, back] = front ++ gap ++ back := by
  by_cases hempty : front = "" ∨ back = ""
  · refine ⟨"", ?_⟩
    unfold stack
    rcases hempty with rfl | rfl
    · by_cases hback : back = "" <;> simp [hback]
    · by_cases hfront : front = "" <;> simp [hfront]
  · obtain ⟨hfront, hback⟩ := not_or.1 hempty
    refine ⟨"\n", ?_⟩
    unfold stack
    simp [hfront, hback]

theorem front_of_stack (back : String) (h : Includes text piece) :
    Includes (stack [text, back]) piece := by
  obtain ⟨gap, hgap⟩ := stack_pair text back
  rw [hgap]
  exact (h.before gap).before back

theorem back_of_stack (front : String) (h : Includes text piece) :
    Includes (stack [front, text]) piece := by
  obtain ⟨gap, hgap⟩ := stack_pair front text
  rw [hgap]
  exact h.after (front ++ gap)

/-- Whether a piece is in a text can be tried out. -/
theorem occurs (h : Includes text piece) : occurs piece.toList text.toList := by
  obtain ⟨front, back, rfl⟩ := h
  rw [String.toList_append, String.toList_append, List.append_assoc]
  induction front.toList with
  | nil =>
    have hprefix : piece.toList.isPrefixOf (piece.toList ++ back.toList) := by simp
    rw [List.nil_append]
    cases hwhole : piece.toList ++ back.toList with
    | nil =>
      rw [(List.append_eq_nil_iff.1 hwhole).1]
      rfl
    | cons c rest =>
      rw [hwhole] at hprefix
      rw [Swift.occurs, hprefix, Bool.true_or]
  | cons c chars ih =>
    rw [List.cons_append, Swift.occurs, ih, Bool.or_true]

end Includes

/-- **A text is a statement of some shape** with a `continue` to a label between its braces. -/
def Encloses (text : String) (shape : Shape) (target : String) : Prop :=
  ∃ head body, text = shape.write head body ∧ Includes body ("continue " ++ target)

/-- **A jump stands in a labelled statement of a text:** the label is directly before a statement of
some shape, and the jump between the braces of that statement. -/
def Surrounds (text label : String) (shape : Shape) (target : String) : Prop :=
  ∃ statement, Encloses statement shape target ∧ Includes text (label ++ ": " ++ statement)

namespace Outline

/-- What an outline is put together from stands in its text. -/
theorem includes_part {outline part : Outline} (h : part ∈ outline.parts) :
    Includes outline.text part.text := by
  cases outline with
  | plain => cases h
  | both front back =>
    rcases List.mem_pair.1 h with rfl | rfl
    · exact (Includes.self _).before _
    · exact (Includes.self _).after _
  | above front back =>
    rcases List.mem_pair.1 h with rfl | rfl
    · exact (Includes.self _).front_of_stack _
    · exact (Includes.self _).back_of_stack _
  | braces body =>
    rw [List.mem_singleton.1 h]
    exact (Includes.self _).braces
  | skip => cases h
  | labeled label body =>
    rw [List.mem_singleton.1 h]
    exact (Includes.self _).after _
  | whileLoop test body =>
    rcases List.mem_pair.1 h with rfl | rfl
    · exact (((Includes.self _).after _).before _).before _
    · exact (Includes.self _).braces.after _
  | repeatLoop body test =>
    rcases List.mem_pair.1 h with rfl | rfl
    · exact (((Includes.self _).braces.after _).before _).before _
    · exact (Includes.self _).after _
  | forLoop head body =>
    rcases List.mem_pair.1 h with rfl | rfl
    · exact (((Includes.self _).after _).before _).before _
    · exact (Includes.self _).braces.after _
  | scope body =>
    rw [List.mem_singleton.1 h]
    exact (Includes.self _).braces.after _
  | function content =>
    rw [List.mem_singleton.1 h]
    exact .self _

theorem Within.includes {outline piece : Outline} (h : Within piece outline) :
    Includes outline.text piece.text := by
  induction h with
  | whole => exact .self _
  | part member _ ih => exact (includes_part member).trans ih

/-- A label that is jumped to stands behind a jump. -/
theorem within_skip {outline : Outline} {target : String} (h : target ∈ outline.targets) :
    Within (.skip target) outline := by
  induction outline with
  | plain => cases h
  | skip label =>
    rw [List.mem_singleton.1 h]
    exact .whole
  | function => cases h
  | braces body ih => exact .part List.mem_cons_self (ih h)
  | labeled label body ih => exact .part List.mem_cons_self (ih h)
  | scope body ih => exact .part List.mem_cons_self (ih h)
  | both first second ihf ihs
  | above first second ihf ihs
  | whileLoop first second ihf ihs
  | repeatLoop first second ihf ihs
  | forLoop first second ihf ihs =>
    rcases List.mem_append.1 h with h | h
    · exact .part List.mem_cons_self (ihf h)
    · exact .part (.tail _ List.mem_cons_self) (ihs h)

/-- **What is around a jump stands in the text.** -/
theorem Keeps.surrounds {outline : Outline} {label target : String} {shape : Shape}
    (h : outline.Keeps label shape target) : Surrounds outline.text label shape target := by
  obtain ⟨head, body, hwithin, htarget⟩ := h
  have htext : (statement shape head body).text = shape.write head.text body.text := by
    cases shape <;> rfl
  have hjump : Includes body.text ("continue " ++ target) := (within_skip htarget).includes
  exact ⟨(statement shape head body).text, ⟨head.text, body.text, htext, hjump⟩, hwithin.includes⟩

end Outline

end SwiftScribe.Swift
