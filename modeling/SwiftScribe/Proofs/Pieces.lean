import SwiftScribe.Proofs.Outline

/-!
# Outlines of the pieces of a text

Every piece that generation puts texts together with has an outline that is put together in the same
way: blocks, operands, closures, signatures, the cases of a switch, loops. How the jumps of a piece
come from those of its parts is told once for each.

* `Holds`, `HoldsUnder`: the text of an outline and its jumps, without a label or with any label
  directly before.
* `Tells`, `TellsUnder`: the same of what a draft makes.
* `HoldsUnder.steppedLoop`: a C-style `for` is a scope, and has all its jumps between the braces.
-/

namespace SwiftScribe.Swift

/-! ## Pieces -/

namespace Outline

/-- A draft without labelled jumps. -/
def said (answers : Answers) (draft : Draft String) : Outline := textOf answers draft

/-- What a label is directly before: only a loop takes it. -/
def exposed (node : Node) (outline : Outline) : Outline :=
  match node with
  | .whileStatement .. => outline
  | .doWhileStatement .. => outline
  | .forStatement .. => outline
  | .forInStatement .. => outline
  | .forOfStatement .. => outline
  | _ => "" ++ outline

/-- Things on lines of their own. -/
def stack : List Outline → Outline
  | [] => ""
  | first :: rest => above first (stack rest)

/-- Things with a separator between them. -/
def join (separator : String) : List Outline → Outline
  | [] => ""
  | [last] => last
  | first :: rest => first ++ separator ++ join separator rest

def spreadOut (parts? : Option (List Outline)) (whole : Outline) : Outline :=
  match parts? with
  | some parts => stack parts
  | none => whole

/-- A part that may be missing, with something in front of it. -/
def behind (opening : String) : Option Outline → Outline
  | none => ""
  | some code => opening ++ code

/-! ### Statements -/

def bodyBlock (body : Node) (code : Outline) : Outline :=
  match body with
  | .blockStatement _ => code
  | _ => braces code

def elseBlock (alternate : Node) (code : Outline) : Outline :=
  match alternate with
  | .ifStatement .. => code
  | _ => bodyBlock alternate code

/-- The body of a `while` that stands for a `for`. -/
def loopBody (canContinue : Bool) (body update : Outline) : Outline :=
  if update.text = "" then body ++ update
  else if canContinue then above ("defer " ++ braces update) body
  else above body update

/-- A loop with something on the lines before it. -/
def opened (init : Option Outline) (loop : Outline) : Outline :=
  match init with
  | some init => init ++ "\n" ++ loop
  | none => loop

/-- A C-style `for`: the loop is inside of a scope. -/
def steppedLoop (canContinue : Bool) (test update body : Outline) (init : Option Outline) : Outline :=
  scope (opened init (whileLoop test (loopBody canContinue body update)))

/-- A loop over the result of a call. -/
def forEach (left : Node) (call : String) (items body : Outline) : Outline :=
  let name := (left.singleBinding?.map fun id => identifier id.name).getD ""
  forLoop ((name ++ call : String) ++ items ++ ")") body

def tryBlock (finalizer : Option Outline) (block : Outline) : Outline :=
  match finalizer with
  | some finalizer => "do " ++ braces (above ("defer " ++ finalizer) block)
  | none => "do " ++ braces (above "" block)

/-- A thing, or something else in its place if it has no text. -/
def orElse (code : Outline) (filler : String) : Outline :=
  if code.text = "" then code ++ filler else code

def caseText (test : Option Outline) (body : Outline) : Outline :=
  match test with
  | some test => "case " ++ test ++ ":\n" ++ body.orElse "fallthrough"
  | none => "default:\n" ++ body.orElse "break"

def orderedCases (cases : List (SwitchCase × Outline)) : List Outline :=
  let tested := cases.filter (·.1.test.isSome)
  let default := (cases.find? (·.1.test.isNone)).map (·.2)
  tested.map (·.2) ++ [default.getD (.plain "default:\nbreak")]

/-! ### Expressions -/

def parens (code : Outline) : Outline := "(" ++ code ++ ")"

def operand (node : Node) (code : Outline) : Outline :=
  if isOperation node then parens code else code

def prefixOperand (node : Node) (code : Outline) : Outline :=
  match node with
  | .unaryExpression .. => parens code
  | .updateExpression .. => parens code
  | _ => operand node code

def binary (operator : String) (left right : Outline) : Outline :=
  if operator = "===" then left ++ " == " ++ right
  else if operator = "!==" then left ++ " != " ++ right
  else if operator = "instanceof" then left ++ " is " ++ right
  else if operator = "in" then "JST.contains(" ++ left ++ ", " ++ right ++ ")"
  else left ++ " " ++ operator ++ " " ++ right

/-- The key of a property. A name stands for a string. -/
def shownKey (key : Node) (computed : Bool) (code : Outline) : Outline :=
  match key, computed with
  | .identifier id, false => quote id.name
  | _, _ => code

def templateBody : List TemplateElement → List Outline → Outline
  | [], _ => ""
  | quasi :: quasis, [] => escape (templateText quasi) ++ templateBody quasis []
  | quasi :: quasis, code :: codes =>
    (escape (templateText quasi) ++ "\\(" : String) ++ code ++ ")" ++ templateBody quasis codes

def wrap (escaped : Outline) : Outline :=
  if '\n' ∈ escaped.text.toList then "\"\"\"\n" ++ escaped ++ "\n\"\"\"" else "\"" ++ escaped ++ "\""

/-- The parameters of a closure. -/
def closureHead (answers : Answers) (params : List Node) : Outline :=
  said answers (Scribe.join ", " (params.map closureParameter))

def closure (answers : Answers) (params : List Node) (body : Outline) : Outline :=
  if params.isEmpty then function (braces body)
  else function ("\x7b " ++ closureHead answers params ++ " in\n" ++ body ++ "\n\x7d")

def expressionClosure (answers : Answers) (params : List Node) (body : Outline) : Outline :=
  if params.isEmpty then function ("\x7b " ++ body ++ " \x7d")
  else function ("\x7b " ++ closureHead answers params ++ " in " ++ body ++ " \x7d")

/-! ### Declarations -/

def binding (name : String) (path : TypePath) (type : Option String) (init : Option Outline) :
    Outline :=
  match type, init with
  | some type, some init => (name ++ " : " ++ type ++ " = " : String) ++ init
  | some type, none => (name ++ " : " ++ type : String)
  | none, some init => (name ++ " /* " ++ path.text ++ " */ = " : String) ++ init
  | none, none => (name ++ " : /* " ++ path.text ++ " */ Any? = nil" : String)

def signature (answers : Answers) (path : TypePath) (params : List Outline) (body : List Node)
    (isAsync returns : Bool) (code : Outline) : Outline :=
  function (said answers (genericParameters path ++ pure "(") ++ join ", " params
    ++ (if isAsync then ") async" else ")" : String)
    ++ said answers (if returns then returnType path body else pure "") ++ " " ++ code)

end Outline

/-! ## Texts with given jumps -/

/-- **A text with an outline and its jumps**, whatever is around it. -/
def Holds (jumps : Jumps) (outline : Outline) (text : String) : Prop :=
  outline.text = text ∧ ∀ around, (outline.skips none around).Perm (jumps around)

/-- **A text with an outline and its jumps**, whatever is around it and whichever label is directly
before it. -/
def HoldsUnder (jumps : Option String → Jumps) (outline : Outline) (text : String) : Prop :=
  outline.text = text ∧
    ∀ attached around, (outline.skips attached around).Perm (jumps attached around)

/-- **A part that may be missing**, and has no jumps then. -/
inductive MayHold : Jumps → Option Outline → Option String → Prop
  | missing : MayHold (fun _ => []) none none
  | present {jumps : Jumps} {outline : Outline} {text : String} (h : Holds jumps outline text) :
    MayHold jumps (some outline) (some text)

/-- Three lists of things that belong together, one by one. -/
inductive Each {α β γ : Type} (holds : α → β → γ → Prop) : List α → List β → List γ → Prop
  | nil : Each holds [] [] []
  | cons {a : α} {b : β} {c : γ} {as : List α} {bs : List β} {cs : List γ} (first : holds a b c)
    (rest : Each holds as bs cs) : Each holds (a :: as) (b :: bs) (c :: cs)

theorem Each.append {α β γ : Type} {holds : α → β → γ → Prop} {as as' : List α} {bs bs' : List β}
    {cs cs' : List γ} (h : Each holds as bs cs) (h' : Each holds as' bs' cs') :
    Each holds (as ++ as') (bs ++ bs') (cs ++ cs') := by
  induction h with
  | nil => exact h'
  | cons first _ ih => exact .cons first ih

/-- No jumps. -/
def still : Jumps := fun _ => []

/-- The jumps of one thing and of another. -/
def Jumps.and (first second : Jumps) : Jumps := fun around => first around ++ second around

/-- The jumps of some things. -/
def Jumps.all (jumps : List Jumps) : Jumps := fun around => jumps.flatMap fun some => some around

/-- Jumps inside of a statement, which has a label attached or none. -/
def Jumps.inside (jumps : Jumps) (shape : Shape) (attached : Option String) : Jumps :=
  fun around => jumps (enter attached shape around)

/-- Jumps inside of a function. -/
def Jumps.apart (jumps : Jumps) : Jumps := fun _ => jumps []

namespace Holds

variable {jumps first second : Jumps} {text front back : String}
  {outline ahead behind : Outline}

theorem congr (h : Holds first outline text) (hp : ∀ around, (first around).Perm (second around)) :
    Holds second outline text := ⟨h.1, fun around => (h.2 around).trans (hp around)⟩

theorem plain (text : String) : Holds still text text := ⟨rfl, fun _ => .nil⟩

theorem append (hf : Holds first ahead front) (hb : Holds second behind back) :
    Holds (first.and second) (ahead ++ behind) (front ++ back) := by
  obtain ⟨rfl, hahead⟩ := hf
  obtain ⟨rfl, hbehind⟩ := hb
  exact ⟨rfl, fun around => (hahead around).append (hbehind around)⟩

theorem after (front : String) (h : Holds jumps outline text) :
    Holds jumps (front ++ outline) (front ++ text) := (plain front).append h

theorem before (h : Holds jumps outline text) (back : String) :
    Holds jumps (outline ++ back) (text ++ back) :=
  (h.append (plain back)).congr fun _ => .of_eq (List.append_nil _)

theorem skip (label : String) :
    Holds (fun around => [⟨label, around⟩]) (.skip label) ("continue " ++ label) :=
  ⟨rfl, fun _ => .refl _⟩

/-- A function keeps its jumps to itself. -/
theorem function (h : Holds jumps outline text) : Holds jumps.apart (.function outline) text :=
  ⟨h.1, fun _ => h.2 []⟩

theorem parens (h : Holds jumps outline text) : Holds jumps outline.parens (parens text) :=
  (h.after _).before _

theorem braces (h : Holds jumps outline text) : Holds jumps (.braces outline) (braces text) :=
  ⟨congrArg Swift.braces h.1, h.2⟩

theorem above (hf : Holds first ahead front) (hb : Holds second behind back) :
    Holds (first.and second) (.above ahead behind) (Swift.stack [front, back]) := by
  obtain ⟨rfl, hahead⟩ := hf
  obtain ⟨rfl, hbehind⟩ := hb
  exact ⟨rfl, fun around => (hahead around).append (hbehind around)⟩

theorem binary (operator : String) (hf : Holds first ahead front) (hb : Holds second behind back) :
    Holds (first.and second) (.binary operator ahead behind) (binaryText operator front back) := by
  unfold Swift.binaryText Outline.binary
  split_ifs
  · exact (hf.before _).append hb
  · exact (hf.before _).append hb
  · exact (hf.before _).append hb
  · exact (((hf.after _).before _).append hb).before _
  · exact (((hf.before _).before _).before _).append hb

theorem wrap (h : Holds jumps outline text) : Holds jumps outline.wrap (wrap text) := by
  unfold Swift.wrap Outline.wrap
  rw [h.1]
  split
  · exact (h.after _).before _
  · exact (h.after _).before _

theorem orElse (h : Holds jumps outline text) (filler : String) :
    Holds jumps (outline.orElse filler) (if text = "" then filler else text) := by
  unfold Outline.orElse
  rw [h.1]
  split
  · rename_i hempty
    have hboth := h.before filler
    rwa [hempty, String.empty_append] at hboth
  · exact h

/-- The cases of a switch and its default. -/
theorem caseText {guard : Option Outline} {test : Option String} (ht : MayHold first guard test)
    (hb : Holds second outline text) :
    Holds (first.and second) (.caseText guard outline) (caseText test text) := by
  cases ht with
  | missing => exact (hb.orElse _).after _
  | present ht => exact ((ht.after _).before _).append (hb.orElse _)

/-! ### Lists of texts -/

variable {parts : List Jumps} {outlines : List Outline} {texts : List String}

theorem stack (h : Each Holds parts outlines texts) :
    Holds (Jumps.all parts) (.stack outlines) (Swift.stack texts) := by
  induction h with
  | nil => exact plain _
  | @cons jumps outline text parts outlines texts hfirst _ ih =>
    have hsplit : Swift.stack (text :: texts) = Swift.stack [text, Swift.stack texts] := by
      rw [← List.singleton_append, stack_append, stack_singleton]
    rw [hsplit]
    exact hfirst.above ih

theorem join (separator : String) (h : Each Holds parts outlines texts) :
    Holds (Jumps.all parts) (.join separator outlines) (separator.intercalate texts) := by
  induction h with
  | nil => exact plain _
  | @cons jumps outline text parts outlines texts hfirst hrest ih =>
    cases hrest with
    | nil =>
      rw [String.intercalate_singleton]
      exact hfirst.congr fun _ => .of_eq (List.append_nil _).symm
    | cons =>
      rw [String.intercalate_cons_cons]
      exact (hfirst.before _).append ih

end Holds

/-- The block of a `try`, behind what runs on every way out. -/
theorem Holds.tryBlock {first second : Jumps} {last : Option Outline} {block : Outline}
    {finalizer : Option String} {text : String} (hf : MayHold first last finalizer)
    (hb : Holds second block text) :
    Holds (first.and second) (.tryBlock last block) (tryBlock finalizer text) := by
  have hparts : "\n".intercalate ((finalizer.toList.map ("defer " ++ ·)) ++ [text].filter (· ≠ ""))
      = Swift.stack [(finalizer.map ("defer " ++ ·)).getD "", text] := by
    cases finalizer with
    | none => simp [Swift.stack]
    | some finalizer => simp [Swift.stack]
  unfold Swift.tryBlock
  rw [hparts]
  cases hf with
  | missing => exact ((plain "").above hb).braces.after _
  | present hf => exact ((hf.after _).above hb).braces.after _

/-- The body of a `while` that stands for a `for`. -/
theorem Holds.loopBody {first second : Jumps} (canContinue : Bool) {inner step : Outline}
    {body update : String} (hb : Holds first inner body) (hu : Holds second step update) :
    Holds (first.and second) (.loopBody canContinue inner step) (loopBody canContinue body update) := by
  unfold Swift.loopBody Outline.loopBody
  rw [hu.1]
  split_ifs with hempty
  · have hboth := hb.append hu
    rwa [hempty, String.append_empty] at hboth
  · -- what is deferred is written above the body
    exact ((hu.braces.after _).above hb).congr fun _ => List.perm_append_comm
  · exact hb.above hu

/-- A variable with its type and its value. -/
theorem MayHold.binding {jumps : Jumps} (name : String) (path : TypePath) (type : Option String)
    {value : Option Outline} {init : Option String} (h : MayHold jumps value init) :
    Holds jumps (.binding name path type value) (binding name path type init) := by
  cases h with
  | missing => cases type <;> exact Holds.plain _
  | present h => cases type <;> exact h.after _

theorem MayHold.opened {first jumps : Jumps} {opening : Option Outline} {init : Option String}
    {outline : Outline} {text : String} (hi : MayHold first opening init)
    (h : Holds jumps outline text) :
    Holds (first.and jumps) (.opened opening outline) ("\n".intercalate (init.toList ++ [text])) := by
  cases hi with
  | missing =>
    have htext : "\n".intercalate (Option.toList none ++ [text]) = text :=
      String.intercalate_singleton
    rw [htext]
    exact h
  | @present _ _ init hi =>
    have htext : "\n".intercalate (Option.toList (some init) ++ [text]) = init ++ "\n" ++ text := by
      simp
    rw [htext]
    exact (hi.before "\n").append h

namespace HoldsUnder

variable {jumps : Option String → Jumps} {outline : Outline} {text : String}

/-- Only a loop cares for the label. -/
theorem of_holds {jumps : Jumps} (h : Holds jumps outline text) :
    HoldsUnder (fun _ => jumps) ("" ++ outline) text := by
  refine ⟨?_, fun _ around => h.2 around⟩
  rw [← h.1]
  exact String.empty_append

theorem unlabeled (h : HoldsUnder jumps outline text) : Holds (jumps none) outline text :=
  ⟨h.1, fun around => h.2 none around⟩

/-- Without a label it does not matter what takes one. -/
theorem holds {node : Node} (h : HoldsUnder jumps (outline.exposed node) text) :
    Holds (jumps none) outline text := by
  have htext : (outline.exposed node).text = outline.text := by
    unfold Outline.exposed
    split <;> rfl
  have hskips (around : Around) :
      (outline.exposed node).skips none around = outline.skips none around := by
    unfold Outline.exposed
    split <;> rfl
  exact ⟨htext ▸ h.1, fun around => hskips around ▸ h.2 none around⟩

/-- A label is attached to what it is directly before. -/
theorem labeled (label : String) (h : HoldsUnder jumps outline text) :
    Holds (jumps (some label)) (.labeled label outline) (label ++ ": " ++ text) := by
  obtain ⟨rfl, hskips⟩ := h
  exact ⟨rfl, fun around => hskips (some label) around⟩

/-! ### Statements with a label -/

section Loops

variable {check body : Jumps} {test inner : Outline} {condition code : String}

theorem whileLoop (ht : Holds check test condition) (hb : Holds body inner code) :
    HoldsUnder (fun attached => check.and (body.inside .whileLoop attached)) (.whileLoop test inner)
      (Shape.whileLoop.write condition code) := by
  obtain ⟨rfl, htest⟩ := ht
  obtain ⟨rfl, hbody⟩ := hb
  exact ⟨rfl, fun _ around => (htest around).append (hbody _)⟩

theorem repeatLoop (hb : Holds body inner code) (ht : Holds check test condition) :
    HoldsUnder (fun attached => (body.inside .repeatLoop attached).and check) (.repeatLoop inner test)
      (Shape.repeatLoop.write condition code) := by
  obtain ⟨rfl, htest⟩ := ht
  obtain ⟨rfl, hbody⟩ := hb
  exact ⟨rfl, fun _ around => (hbody _).append (htest around)⟩

theorem forLoop (ht : Holds check test condition) (hb : Holds body inner code) :
    HoldsUnder (fun attached => check.and (body.inside .forLoop attached)) (.forLoop test inner)
      (Shape.forLoop.write condition code) := by
  obtain ⟨rfl, htest⟩ := ht
  obtain ⟨rfl, hbody⟩ := hb
  exact ⟨rfl, fun _ around => (htest around).append (hbody _)⟩

theorem scope (hb : Holds body inner code) :
    HoldsUnder (body.inside .scope) (.scope inner) (Shape.scope.write "" code) := by
  obtain ⟨rfl, hbody⟩ := hb
  exact ⟨rfl, fun _ around => hbody _⟩

/-- **A C-style `for` is a scope**, and has its jumps in the loop inside. -/
theorem steppedLoop {start step : Jumps} (canContinue : Bool) {update : Outline} {next : String}
    {opening : Option Outline} {init : Option String} (hi : MayHold start opening init)
    (ht : Holds check test condition) (hu : Holds step update next) (hb : Holds body inner code) :
    HoldsUnder (((start.and check).and step).and body |>.inside .scope)
      (.steppedLoop canContinue test update inner opening)
      (Swift.forLoop canContinue condition next code init) := by
  have hloop : Holds (check.and (body.and step)) (.whileLoop test (.loopBody canContinue inner update))
      (Shape.whileLoop.write condition (Swift.loopBody canContinue code next)) :=
    (whileLoop ht (hb.loopBody canContinue hu)).unlabeled
  -- in the source the update comes before the body
  have horder (around : Around) : ((start.and (check.and (body.and step))) around).Perm
      ((((start.and check).and step).and body) around) := by
    unfold Jumps.and
    simp only [List.append_assoc]
    exact (List.perm_append_comm.append_left _).append_left _
  exact scope ((hi.opened hloop).congr horder)

end Loops

end HoldsUnder

/-! ## Drafts -/

/-- What a draft makes has an outline with its jumps. -/
def Tells (answers : Answers) (jumps : Jumps) (outline : Outline) (draft : Draft String) : Prop :=
  Yields answers (Holds jumps outline) draft

/-- What a draft makes has an outline with its jumps, whichever label is directly before it. -/
def TellsUnder (answers : Answers) (jumps : Option String → Jumps) (outline : Outline)
    (draft : Draft String) : Prop :=
  Yields answers (HoldsUnder jumps outline) draft

/-- What a part makes that may be missing. -/
def MayTell (answers : Answers) (jumps : Jumps) (outline : Option Outline)
    (draft : Draft (Option String)) : Prop :=
  Yields answers (MayHold jumps outline) draft

namespace MayTell

variable {answers : Answers}

theorem missing : MayTell answers still none (pure none) := Yields.pure .missing

theorem present {jumps : Jumps} {outline : Outline} {draft : Draft String}
    (h : Tells answers jumps outline draft) :
    MayTell answers jumps (some outline) (some <$> draft) := Yields.map h fun _ ht => .present ht

end MayTell

theorem yields_resolve (answers : Answers) (path : TypePath) :
    Yields answers (answers path = ·) (Scribe.resolve path) := by
  intro type h
  exact Except.ok.inj h

/-- Two drafts with a fixed text before each. -/
theorem Yields.spaced {answers : Answers} {P Q R : String → Prop} {first second : Draft String}
    (opening middle : String) (hf : Yields answers P first) (hs : Yields answers Q second)
    (h : ∀ a b, P a → Q b → R (opening ++ a ++ middle ++ b)) :
    Yields answers R (Pure.pure opening ++ first ++ Pure.pure middle ++ second) := by
  have hopened : Yields answers (fun text => ∃ a, P a ∧ text = opening ++ a)
      (Pure.pure opening ++ first) :=
    Yields.append (P := (· = opening)) (.pure rfl) hf fun _ a ho ha => ⟨a, ha, by rw [ho]⟩
  have hclosed : Yields answers (fun text => ∃ a, P a ∧ text = opening ++ a ++ middle)
      (Pure.pure opening ++ first ++ Pure.pure middle) := by
    refine Yields.append (Q := (· = middle)) hopened (.pure rfl) ?_
    rintro _ _ ⟨a, ha, rfl⟩ rfl
    exact ⟨a, ha, rfl⟩
  refine Yields.append hclosed hs ?_
  rintro _ b ⟨a, ha, rfl⟩ hb
  exact h a b ha hb

namespace Tells

variable {answers : Answers} {jumps first second : Jumps} {outline ahead behind : Outline}
  {draft front back : Draft String}

/-- **A draft without parts of its own has no jumps.** -/
theorem said (draft : Draft String) : Tells answers still (.said answers draft) draft :=
  Yields.imp (Prints.textOf draft) fun text ht => ht ▸ Holds.plain text

theorem plain (text : String) : Tells answers still text (pure text) := Yields.pure (.plain text)

theorem congr (h : Tells answers first outline draft)
    (hp : ∀ around, (first around).Perm (second around)) : Tells answers second outline draft :=
  Yields.imp h fun _ ht => ht.congr hp

theorem append (hf : Tells answers first ahead front) (hb : Tells answers second behind back) :
    Tells answers (first.and second) (ahead ++ behind) (front ++ back) :=
  Yields.append hf hb fun _ _ ha hb => ha.append hb

theorem after (front : String) (h : Tells answers jumps outline draft) :
    Tells answers jumps (front ++ outline) (pure front ++ draft) := (plain front).append h

theorem before (h : Tells answers jumps outline draft) (back : String) :
    Tells answers jumps (outline ++ back) (draft ++ pure back) :=
  (h.append (plain back)).congr fun _ => .of_eq (List.append_nil _)

theorem fail (construct : Construct) (detail : String) :
    Tells answers jumps outline (Scribe.fail construct detail) := Yields.fail construct detail

theorem braces (h : Tells answers jumps outline draft) :
    Tells answers jumps (.braces outline) (Swift.braces <$> draft) :=
  Yields.map h fun _ ht => ht.braces

theorem parens (h : Tells answers jumps outline draft) :
    Tells answers jumps outline.parens (Swift.parens <$> draft) :=
  Yields.map h fun _ ht => ht.parens

theorem bodyBlock (body : Node) (h : Tells answers jumps outline draft) :
    Tells answers jumps (.bodyBlock body outline) (Swift.bodyBlock body draft) := by
  cases body with
  | blockStatement => exact h
  | _ => exact h.braces

theorem elseBlock (alternate : Node) (h : Tells answers jumps outline draft) :
    Tells answers jumps (.elseBlock alternate outline) (Swift.elseBlock alternate draft) := by
  cases alternate with
  | ifStatement => exact h
  | _ => exact h.bodyBlock _

theorem operand (node : Node) (h : Tells answers jumps outline draft) :
    Tells answers jumps (.operand node outline) (Swift.operand node draft) := by
  unfold Swift.operand Outline.operand
  split
  · exact h.parens
  · exact h

theorem prefixOperand (node : Node) (h : Tells answers jumps outline draft) :
    Tells answers jumps (.prefixOperand node outline) (Swift.prefixOperand node draft) := by
  cases node with
  | unaryExpression => exact h.parens
  | updateExpression => exact h.parens
  | _ => exact h.operand _

theorem binary (operator : String) (left right : Node) (hf : Tells answers first ahead front)
    (hb : Tells answers second behind back) :
    Tells answers (first.and second)
      (.binary operator (.operand left ahead) (.operand right behind))
      (Swift.binaryText operator <$> Swift.operand left front <*> Swift.operand right back) :=
  Yields.seq (Yields.map (hf.operand left) fun _ ha _ hb => ha.binary operator hb)
    (hb.operand right)

/-- A closure that is one expression. -/
theorem expressionClosure (params : List Node) (h : Tells answers jumps outline draft) :
    Tells answers jumps.apart (.expressionClosure answers params outline)
      (Swift.expressionClosure params draft) := by
  unfold Swift.expressionClosure Outline.expressionClosure
  split
  · exact Yields.map h fun _ ht => ((ht.after _).before _).function
  · have hnames : Tells answers still (.closureHead answers params)
        (Scribe.join ", " (params.map closureParameter)) := said _
    refine Yields.seq (Yields.map h fun _ ht _ hnames => ?_) hnames
    exact ((((hnames.after _).before _).append ht).before _).function

/-- A closure with statements. -/
theorem closure (params : List Node) (h : Tells answers jumps outline draft) :
    Tells answers jumps.apart (.closure answers params outline) (Swift.closure params draft) := by
  unfold Swift.closure Outline.closure
  split
  · exact Yields.map h fun _ ht => ht.braces.function
  · have hnames : Tells answers still (.closureHead answers params)
        (Scribe.join ", " (params.map closureParameter)) := said _
    refine Yields.seq (Yields.map h fun _ ht _ hnames => ?_) hnames
    exact ((((hnames.after _).before _).append ht).before _).function

/-- A variable with its type, as far as there is an answer, and its value. -/
theorem binding (name : String) (path : TypePath) {value : Option Outline}
    {init : Draft (Option String)} (h : MayTell answers jumps value init) :
    Tells answers jumps (.binding name path (answers path) value)
      (Swift.binding name path <$> Scribe.resolve path <*> init) := by
  refine Yields.seq (Yields.map (yields_resolve answers path) ?_) h
  rintro _ rfl init hinit
  exact hinit.binding name path _

/-! ### Lists of drafts -/

variable {parts : List Jumps} {outlines : List Outline} {drafts : List (Draft String)}

theorem all (h : Each (Tells answers) parts outlines drafts) :
    Yields answers (Each Holds parts outlines) (Scribe.all drafts) := by
  induction h with
  | nil => exact .pure .nil
  | cons hfirst _ ih => exact .seq (Yields.map hfirst fun _ ht _ hts => .cons ht hts) ih

theorem join (separator : String) (h : Each (Tells answers) parts outlines drafts) :
    Tells answers (Jumps.all parts) (.join separator outlines) (Scribe.join separator drafts) :=
  Yields.map (Tells.all h) fun _ ht => Holds.join separator ht

theorem lines (h : Each (Tells answers) parts outlines drafts) :
    Tells answers (Jumps.all parts) (.stack outlines) (Scribe.lines drafts) :=
  Yields.map (Tells.all h) fun _ ht => Holds.stack ht

/-- Parts on lines of their own, or the whole. -/
theorem spreadOut {outlines? : Option (List Outline)} {drafts? : Option (List (Draft String))}
    {whole : Outline} {node : Draft String}
    (hp : Option.Rel (fun outlines drafts =>
      Tells answers jumps (.stack outlines) (Scribe.lines drafts)) outlines? drafts?)
    (hw : drafts? = none → Tells answers jumps whole node) :
    Tells answers jumps (.spreadOut outlines? whole) (Swift.spreadOut drafts? node) := by
  cases hp with
  | none => exact hw rfl
  | some h => exact h

/-- A template shows as many expressions as it has pieces of text. -/
theorem templateBody (quasis : List TemplateElement)
    (h : Each (Tells answers) parts outlines drafts) :
    Tells answers (Jumps.all (parts.take quasis.length)) (.templateBody quasis outlines)
      (Swift.templateBody quasis drafts) := by
  induction quasis generalizing parts outlines drafts with
  | nil => exact plain _
  | cons quasi rest ih =>
    cases h with
    | nil =>
      have hrest := ih .nil
      rw [List.take_nil] at hrest
      exact hrest.after _
    | cons hcode hcodes => exact ((hcode.after _).before _).append (ih hcodes)

/-- What follows the name of a function. -/
theorem signature (path : TypePath) (body : List Node) (isAsync returns : Bool)
    (hp : Each (Tells answers) parts outlines drafts) (h : Tells answers jumps outline draft) :
    Tells answers ((Jumps.all parts).and jumps).apart
      (.signature answers path outlines body isAsync returns outline)
      (Swift.signature path drafts body isAsync returns draft) := by
  have hgeneric : Tells answers still _ (genericParameters path ++ pure "(") := said _
  have hopening := hgeneric.append (Tells.join ", " hp)
  have hreturns := (hopening.before (if isAsync then ") async" else ")")).append
    (said (if returns then returnType path body else pure ""))
  refine Yields.imp ((hreturns.before " ").append h) fun _ ht => (ht.congr fun around => ?_).function
  exact .of_eq (by simp [Jumps.and, still])

end Tells

namespace TellsUnder

variable {answers : Answers} {test inner : Draft String} {check body : Jumps}
  {condition code : Outline}

theorem of_tells {jumps : Jumps} {outline : Outline} {draft : Draft String}
    (h : Tells answers jumps outline draft) :
    TellsUnder answers (fun _ => jumps) ("" ++ outline) draft := Yields.imp h fun _ ht => .of_holds ht

theorem tells {jumps : Option String → Jumps} {outline : Outline} {draft : Draft String} {node : Node}
    (h : TellsUnder answers jumps (outline.exposed node) draft) :
    Tells answers (jumps none) outline draft :=
  Yields.imp h fun _ ht => ht.holds

theorem labeled {jumps : Option String → Jumps} {outline : Outline} {draft : Draft String}
    (label : String) (h : TellsUnder answers jumps outline draft) :
    Tells answers (jumps (some label)) (.labeled label outline) (pure (label ++ ": ") ++ draft) :=
  Yields.append (P := (· = label ++ ": ")) (.pure rfl) h fun _ _ ha hb => by
    rw [ha]
    exact hb.labeled label

/-! ### Loops -/

/-- What stands between the braces of a draft. -/
theorem braced (hb : Tells answers body code inner) :
    Yields answers (fun text => ∃ content, Holds body code content ∧ text = Swift.braces content)
      (Swift.braces <$> inner) := Yields.map hb fun content hc => ⟨content, hc, rfl⟩

theorem whileLoop (ht : Tells answers check condition test) (hb : Tells answers body code inner) :
    TellsUnder answers (fun attached => check.and (body.inside .whileLoop attached))
      (.whileLoop condition code) (pure "while " ++ test ++ pure " " ++ (Swift.braces <$> inner)) := by
  refine Yields.spaced "while " " " ht (braced hb) ?_
  rintro test _ htest ⟨content, hcontent, rfl⟩
  exact HoldsUnder.whileLoop htest hcontent

theorem repeatLoop (hb : Tells answers body code inner) (ht : Tells answers check condition test) :
    TellsUnder answers (fun attached => (body.inside .repeatLoop attached).and check)
      (.repeatLoop code condition)
      (pure "repeat " ++ (Swift.braces <$> inner) ++ pure " while " ++ test) := by
  refine Yields.spaced "repeat " " while " (braced hb) ht ?_
  rintro _ test ⟨content, hcontent, rfl⟩ htest
  exact HoldsUnder.repeatLoop hcontent htest

/-- A loop over the result of a call. -/
theorem forEach {left : Node} {id : Identifier} (hid : left.singleBinding? = some id) (call : String)
    (ht : Tells answers check condition test) (hb : Tells answers body code inner) :
    TellsUnder answers (fun attached => check.and (body.inside .forLoop attached))
      (.forEach left call condition code)
      (pure ("for " ++ identifier id.name ++ call) ++ test ++ pure ") "
        ++ (Swift.braces <$> inner)) := by
  refine Yields.spaced _ ") " ht (braced hb) ?_
  rintro items _ hitems ⟨content, hcontent, rfl⟩
  have hloop := HoldsUnder.forLoop ((hitems.after (identifier id.name ++ call)).before ")") hcontent
  have htext : "for " ++ identifier id.name ++ call ++ items ++ ") " ++ Swift.braces content =
      Shape.forLoop.write (identifier id.name ++ call ++ items ++ ")") content := by
    simp only [Shape.write, String.append_assoc]
    rfl
  unfold Outline.forEach
  rw [hid, htext]
  exact hloop

end TellsUnder

end SwiftScribe.Swift
