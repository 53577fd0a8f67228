import SwiftScribe.Proofs.Neutral

/-!
# The tree that a statement is printed from

Generation makes the text of a statement at once. Here the text is told in two steps: a node stands
for a tree of statements, which depends on nothing but the texts of the expressions and declarations
in it, and the tree is printed. What generated code does can then be read off the tree.

* `Swift.Statement`, `Swift.Statement.text`: statements with statements inside, and their text.
* `Node.statement`: the statement that stands for a node.
* `Node.write_statement`: **generation prints that statement.**
-/

namespace SwiftScribe

namespace Swift

/-- **A generated statement.** Of expressions there is only the text. -/
inductive Statement where
  /-- Everything that has no further statements inside. -/
  | simple (text : String)
  | breaks (label : Option Identifier)
  | continues (label : Option Identifier)
  | returns (value : Option String)
  | throws (value : String)
  | block (items : List Statement)
  | branch (test : String) (body : List Statement) (alternate : Option Statement)
  | whileLoop (test : Option String) (body : List Statement)
  | repeatLoop (body : List Statement) (test : String)
  | forLoop (head : String) (body : List Statement)
  | scope (items : List Statement)
  | deferred (items : List Statement)
  | labeled (label : Identifier) (body : Statement)

mutual
/-- The text of a statement. A loop without a test says `true`. -/
def Statement.text : Statement → String
  | .simple text => text
  | .breaks label => jump "break" label
  | .continues label => jump "continue" label
  | .returns value =>
    match value with
    | some value => "return " ++ value
    | none => "return"
  | .throws value => "throw " ++ value
  | .block items => braces (stack (texts items))
  | .branch test body alternate =>
    "if " ++ test ++ " " ++ braces (stack (texts body))
      ++ (match alternate with
          | some alternate => " else " ++ alternate.text
          | none => "")
  | .whileLoop test body => "while " ++ test.getD "true" ++ " " ++ braces (stack (texts body))
  | .repeatLoop body test => "repeat " ++ braces (stack (texts body)) ++ " while " ++ test
  | .forLoop head body => "for " ++ head ++ " " ++ braces (stack (texts body))
  | .scope items => "do " ++ braces ("\n".intercalate (texts items))
  | .deferred items => "defer " ++ braces (stack (texts items))
  | .labeled label body => label.name ++ ": " ++ body.text

/-- The texts of some statements. -/
def texts : List Statement → List String
  | [] => []
  | item :: rest => item.text :: texts rest
end

/-- What stands between the braces of a loop or branch with a given body. -/
def Statement.inner : Statement → List Statement
  | .block items => items
  | other => [other]

/-- What follows an `else`. -/
def Statement.otherwise : Statement → Statement
  | .branch test body alternate => .branch test body alternate
  | other => .block other.inner

/-- The body of a loop with an update, which may be deferred. -/
def loopItems (canContinue : Bool) (update : String) (items : List Statement) : List Statement :=
  if update = "" then items
  else if canContinue then .deferred [.simple update] :: items
  else items ++ [.simple update]

end Swift

open Swift

/-- The first part or the update of a `for`, as a statement of its own: a comma sequence comes on
lines of its own there. -/
def Node.alone : Node → Node
  | declaration@(.variableDeclaration ..) => declaration
  | expression => .expressionStatement expression none

/-- The head of a loop over the result of a call. -/
def loopHead (binding : Option Identifier) (call items : String) : String :=
  (match binding with
    | some id => identifier id.name
    | none => "") ++ call ++ items ++ ")"

/-- The head of a loop over keys or values. -/
def Node.head (code : Node → String) : Node → String
  | .forInStatement left right _ _ => loopHead left.singleBinding? " in JST.keys(" (code right)
  | .forOfStatement left right _ => loopHead left.singleBinding? " in JST.values(" (code right)
  | _ => ""

mutual
/-- **The statement that stands for a node**, given the texts of nodes. -/
def Node.statement (code : Node → String) : Node → Statement
  | .blockStatement body => .block (statements code body)
  | .breakStatement label => .breaks label
  | .continueStatement label => .continues label
  | .returnStatement argument => .returns (argument.map code)
  | .throwStatement argument => .throws (code argument)
  | .ifStatement test consequent none =>
    .branch (code test) (consequent.statement code).inner none
  | .ifStatement test consequent (some alternate) =>
    .branch (code test) (consequent.statement code).inner (some (alternate.statement code).otherwise)
  | .whileStatement test body => .whileLoop (some (code test)) (body.statement code).inner
  | .doWhileStatement body test => .repeatLoop (body.statement code).inner (code test)
  | .forStatement init test update body =>
    .scope
      ((init.map fun init => .simple (code init.alone)).toList ++
        [.whileLoop (test.map code)
          (loopItems body.containsContinue ((update.map fun update => code update.alone).getD "")
            (body.statement code).inner)])
  | loop@(.forInStatement _ _ body _) => .forLoop (loop.head code) (body.statement code).inner
  | loop@(.forOfStatement _ _ body) => .forLoop (loop.head code) (body.statement code).inner
  | .labeledStatement label body => .labeled label (body.statement code)
  | other => .simple (code other)

/-- The statements that stand for some nodes. -/
def statements (code : Node → String) : List Node → List Statement
  | [] => []
  | node :: rest => node.statement code :: statements code rest
end

theorem statements_eq_map (code : Node → String) (nodes : List Node) :
    statements code nodes = nodes.map (Node.statement code) := by
  induction nodes with
  | nil => rfl
  | cons node rest ih => rw [statements, ih, List.map_cons]

namespace Swift

/-! ## Stacks of texts -/

theorem texts_eq_map (items : List Statement) : texts items = items.map Statement.text := by
  induction items with
  | nil => rfl
  | cons item rest ih => rw [texts, ih, List.map_cons]

theorem stack_singleton (text : String) : stack [text] = text := by
  unfold stack
  by_cases h : text = ""
  · simp [h]
  · simp [h]

theorem stack_eq_empty {parts : List String} (h : stack parts = "") :
    parts.filter (· ≠ "") = [] := by
  unfold stack at h
  cases hparts : parts.filter (· ≠ "") with
  | nil => rfl
  | cons first rest =>
    have hfirst : first ≠ "" := by
      have hm : first ∈ parts.filter (· ≠ "") := hparts ▸ List.mem_cons_self
      simpa using (List.mem_filter.1 hm).2
    rw [hparts, ← String.toList_inj, String.toList_intercalate] at h
    cases rest with
    | nil => simp [hfirst] at h
    | cons second more => simp [hfirst] at h

/-- **Stacks on top of each other are one stack.** -/
theorem stack_append (front back : List String) :
    stack (front ++ back) = stack [stack front, stack back] := by
  by_cases hf : front.filter (· ≠ "") = []
  · have hfront : stack front = "" := by rw [stack, hf]; rfl
    rw [hfront, stack, List.filter_append, hf, List.nil_append]
    exact (stack_singleton (stack back)).symm
  by_cases hb : back.filter (· ≠ "") = []
  · have hback : stack back = "" := by rw [stack, hb]; rfl
    have hpair (text : String) : stack [text, ""] = stack [text] := by
      simp [stack, List.filter_cons]
    rw [hback, hpair, stack_singleton, stack, List.filter_append, hb, List.append_nil, stack]
  · have hfront : stack front ≠ "" := fun h => hf (stack_eq_empty h)
    have hback : stack back ≠ "" := fun h => hb (stack_eq_empty h)
    have hpair : stack [stack front, stack back] = stack front ++ "\n" ++ stack back := by
      rw [stack, List.filter_eq_self.2 (by simp [hfront, hback])]
      simp
    rw [hpair, stack, List.filter_append, String.intercalate_append_of_ne_nil hf hb, stack, stack]

theorem texts_append (front back : List Statement) :
    texts (front ++ back) = texts front ++ texts back := by
  simp only [texts_eq_map, List.map_append]

theorem loopBody_eq (canContinue : Bool) (items : List Statement) (update : String) :
    loopBody canContinue (stack (texts items)) update =
      stack (texts (loopItems canContinue update items)) := by
  unfold loopBody loopItems
  split
  · rfl
  split
  · have hdefer : texts (.deferred [.simple update] :: items) =
        ["defer " ++ braces update] ++ texts items := by
      simp [texts, Statement.text, stack_singleton]
    rw [hdefer, stack_append, stack_singleton]
  · have hlast : texts [.simple update] = [update] := by simp [texts, Statement.text]
    rw [texts_append, stack_append, hlast, stack_singleton]

/-! ## Statements on their own -/

/-- A statement that stands for no block is its own content. -/
theorem stack_inner {statement : Statement} (h : ∀ items, statement ≠ .block items) :
    stack (texts statement.inner) = statement.text := by
  have hinner : statement.inner = [statement] := by
    cases statement with
    | block items => exact absurd rfl (h items)
    | _ => rfl
  rw [hinner, texts, texts, stack_singleton]

end Swift

theorem Node.statement_ne_block (code : Node → String) {node : Node}
    (h : ∀ body, node ≠ .blockStatement body) (items : List Statement) :
    node.statement code ≠ .block items := by
  cases node with
  | blockStatement body => exact absurd rfl (h body)
  | ifStatement test consequent alternate => cases alternate <;> nofun
  | _ => nofun

/-! ## Printing -/

namespace Swift

/-- What a draft makes under some answers. -/
def textOf (answers : Answers) (draft : Draft String) : String :=
  (draft.run answers).toOption.getD ""

end Swift

/-- The text of a node on its own, under some answers. -/
def Node.textOn (answers : Answers) (path : TypePath) (node : Node) : String :=
  textOf answers (node.swift path)

/-- The call of a function, as a statement. -/
def Node.call (name : String) : Node :=
  .expressionStatement (.callExpression (.identifier ⟨name⟩) []) none

namespace Swift

/-- **What a draft makes, if it makes anything, is a given text.** -/
def Prints (answers : Answers) (text : String) (draft : Draft String) : Prop :=
  Yields answers (· = text) draft

namespace Prints

variable {answers : Answers} {path : TypePath} {draft first second : Draft String}
  {text a b : String} {code : Node → String}

theorem textOf (draft : Draft String) : Prints answers (textOf answers draft) draft := by
  intro text h
  rw [Swift.textOf, h]
  rfl

theorem textOn (path : TypePath) (node : Node) :
    Prints answers (node.textOn answers path) (node.write path) := textOf (node.swift path)

theorem fixed (text : String) : Prints answers text (pure text) := .pure rfl

theorem append (hf : Prints answers a first) (hs : Prints answers b second) :
    Prints answers (a ++ b) (first ++ second) := Yields.append hf hs fun _ _ ha hb => by rw [ha, hb]

theorem braces (h : Prints answers text draft) :
    Prints answers (Swift.braces text) (Swift.braces <$> draft) := h.map fun _ ht => by rw [ht]

/-- Texts on lines of their own. -/
theorem lines {drafts : List (Draft String)} {parts : List String}
    (h : Yields answers (· = parts) (Scribe.all drafts)) :
    Prints answers (stack parts) (Scribe.lines drafts) := h.map fun _ ht => by rw [ht]; rfl

/-- The body of a loop or branch stands between braces. -/
theorem bodyBlock {body : Node} (h : Prints answers (body.statement code).text draft) :
    Prints answers (Swift.braces (stack (texts (body.statement code).inner)))
      (Swift.bodyBlock body draft) := by
  cases body with
  | blockStatement items => exact h
  | _ => rw [stack_inner (Node.statement_ne_block code (by simp))]; exact h.braces

theorem elseBlock {body : Node} (h : Prints answers (body.statement code).text draft) :
    Prints answers (body.statement code).otherwise.text (Swift.elseBlock body draft) := by
  cases body with
  | ifStatement test consequent alternate => cases alternate <;> exact h
  | _ => exact h.bodyBlock

/-- The statements of a body, spread out among others. -/
theorem spreadOut {body : Node}
    (hparts : ∀ drafts ∈ (body.blockParts? path : Option (List (Draft String))),
      Prints answers (stack (texts (body.statement code).inner)) (Scribe.lines drafts))
    (h : Prints answers (body.statement code).text draft) :
    Prints answers (stack (texts (body.statement code).inner))
      (Swift.spreadOut (body.blockParts? path) draft) := by
  cases body with
  | blockStatement items => exact hparts _ rfl
  | _ => rw [stack_inner (Node.statement_ne_block code (by simp))]; exact h

/-- An expression or declaration as a statement of its own. -/
theorem alone (node : Node) :
    Prints answers (node.alone.textOn answers path)
      (Swift.spreadOut (node.sequenceParts? path) (node.write path)) := by
  cases node with
  | variableDeclaration declarations kind =>
    exact textOn path (.variableDeclaration declarations kind)
  | _ => exact textOn path (.expressionStatement _ none)

/-- A loop over keys or values prints its head and its body. -/
theorem forEach (id : Identifier) (call : String) {items : String} {body : List Statement}
    (hi : Prints answers items first)
    (hb : Prints answers (Swift.braces (stack (texts body))) second) :
    Prints answers (Statement.forLoop (loopHead (some id) call items) body).text
      (pure ("for " ++ identifier id.name ++ call) ++ first ++ pure ") "
        ++ second) := by
  refine ((((fixed _).append hi).append (fixed ") ")).append hb).imp fun _ ht => ?_
  simp [ht, Statement.text, loopHead, String.append_assoc]

end Prints

/-- A node prints the statement that stands for it. -/
def Printed (answers : Answers) (path : TypePath) (node : Node) : Prop :=
  Prints answers (node.statement (Node.textOn answers path)).text (node.write path)

namespace Printed

variable {answers : Answers} {path : TypePath}

theorem blockStatement {body : List Node}
    (h : Yields answers (· = texts (statements (Node.textOn answers path) body))
      (Scribe.all (writeAll path body) : Draft (List String))) :
    Printed answers path (.blockStatement body) := (Prints.lines h).braces

theorem returnStatement (argument : Option Node) :
    Printed answers path (.returnStatement argument) := by
  unfold Printed Node.write
  cases argument with
  | none => exact .fixed _
  | some argument => exact (Prints.fixed _).append (.textOn path argument)

theorem throwStatement (argument : Node) : Printed answers path (.throwStatement argument) :=
  (Prints.fixed _).append (.textOn path argument)

theorem ifStatement (test : Node) {consequent : Node} {alternate : Option Node}
    (hc : Printed answers path consequent) (ha : ∀ node ∈ alternate, Printed answers path node) :
    Printed answers path (.ifStatement test consequent alternate) := by
  have hhead := (((Prints.fixed "if ").append (.textOn path test)).append (.fixed " ")).append
    hc.bodyBlock
  unfold Printed Node.write
  cases alternate with
  | none => exact hhead.append (.fixed "")
  | some alternate =>
    exact hhead.append ((Prints.fixed " else ").append (ha alternate rfl).elseBlock)

theorem whileStatement (test : Node) {body : Node} (h : Printed answers path body) :
    Printed answers path (.whileStatement test body) := by
  unfold Printed Node.write
  exact (((Prints.fixed "while ").append (.textOn path test)).append (.fixed " ")).append
    h.bodyBlock

theorem doWhileStatement {body : Node} (test : Node) (h : Printed answers path body) :
    Printed answers path (.doWhileStatement body test) := by
  unfold Printed Node.write
  exact (((Prints.fixed "repeat ").append h.bodyBlock).append (.fixed " while ")).append
    (.textOn path test)

theorem labeledStatement (label : Identifier) {body : Node} (h : Printed answers path body) :
    Printed answers path (.labeledStatement label body) := (Prints.fixed _).append h

theorem forInStatement (left right : Node) {body : Node} (each : Bool)
    (h : Printed answers path body) :
    Printed answers path (.forInStatement left right body each) := by
  unfold Printed Node.write
  split
  · rename_i id hid
    rw [Node.statement, Node.head, hid]
    exact .forEach id _ (.textOn path right) h.bodyBlock
  · exact .fail .forInBinding _

theorem forOfStatement (left right : Node) {body : Node} (h : Printed answers path body) :
    Printed answers path (.forOfStatement left right body) := by
  unfold Printed Node.write
  split
  · rename_i id hid
    rw [Node.statement, Node.head, hid]
    exact .forEach id _ (.textOn path right) h.bodyBlock
  · exact .fail .forOfBinding _

/-- **A `for` prints a loop in a scope**, whatever parts it has. -/
theorem forStatement (init test update : Option Node) {body : Node}
    (hparts : ∀ drafts ∈ (body.blockParts? path : Option (List (Draft String))),
      Prints answers (stack (texts (body.statement (Node.textOn answers path)).inner))
        (Scribe.lines drafts))
    (h : Printed answers path body) :
    Printed answers path (.forStatement init test update body) := by
  unfold Printed Node.write
  refine .seq (P := (· = init.map fun init => init.alone.textOn answers path))
    (.seq (.seq (P := (· = (update.map fun update => update.alone.textOn answers path).getD ""))
      (.map (P := (· = (test.map (Node.textOn answers path)).getD "true")) ?test
        fun t ht u hu b hb i hi => ?loop) ?update) (Prints.spreadOut hparts h)) ?init
  case test =>
    cases test with
    | none => exact Prints.fixed _
    | some test => exact Prints.textOn path test
  case update =>
    cases update with
    | none => exact Prints.fixed _
    | some update => exact Prints.alone update
  case init =>
    cases init with
    | none => exact .pure rfl
    | some init => exact (Prints.alone init).map fun _ ht => by rw [ht]; rfl
  case loop =>
    rw [ht, hu, hb, hi, Swift.forLoop, loopBody_eq, Node.statement, Statement.text, texts_append]
    cases init <;> rfl

end Printed

end Swift

mutual
/-- **Generation prints the statement that stands for a node.** -/
theorem Node.write_statement (answers : Answers) (path : TypePath) (node : Node) :
    Printed answers path node := by
  cases node with
  | blockStatement body => exact .blockStatement (writeAll_statements answers path body)
  | breakStatement label => exact Prints.fixed _
  | continueStatement label => exact Prints.fixed _
  | returnStatement argument => exact .returnStatement argument
  | throwStatement argument => exact .throwStatement argument
  | ifStatement test consequent alternate =>
    refine .ifStatement test (Node.write_statement answers path consequent) fun node hm => ?_
    cases alternate with
    | none => cases hm
    | some alternate =>
      have h := Node.write_statement answers path alternate
      cases hm
      exact h
  | whileStatement test body => exact .whileStatement test (Node.write_statement answers path body)
  | doWhileStatement body test =>
    exact .doWhileStatement test (Node.write_statement answers path body)
  | labeledStatement label body =>
    exact .labeledStatement label (Node.write_statement answers path body)
  | forStatement init test update body =>
    refine .forStatement init test update (fun drafts hm => ?_)
      (Node.write_statement answers path body)
    cases body with
    | blockStatement items => cases hm; exact .lines (writeAll_statements answers path items)
    | _ => cases hm
  | forInStatement left right body each =>
    exact .forInStatement left right each (Node.write_statement answers path body)
  | forOfStatement left right body =>
    exact .forOfStatement left right (Node.write_statement answers path body)
  | _ => exact Prints.textOn path _

theorem writeAll_statements (answers : Answers) (path : TypePath) (nodes : List Node) :
    Yields answers (· = texts (statements (Node.textOn answers path) nodes))
      (Scribe.all (writeAll path nodes) : Draft (List String)) := by
  cases nodes with
  | nil => exact .pure rfl
  | cons node rest =>
    refine .seq ((Node.write_statement answers path node).map fun text ht texts hts => ?_)
      (writeAll_statements answers path rest)
    rw [ht, hts]
    rfl
end

end SwiftScribe
