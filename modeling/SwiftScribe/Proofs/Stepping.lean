import SwiftScribe.Proofs.Flow
import SwiftScribe.Proofs.Statements

/-!
# The steps of loops

What a statement of the source does is told by a flow of control, and so is what the statement does
that generation makes of it. A `for` becomes a `while` in a scope. Its update stands at the end of the
body, or in a deferred block if the body may skip to the next iteration.

* `Node.flow`, `Swift.Statement.flow`: what is seen of a statement while it runs. In the source the
  update of a `for` is left out on the ways that leave the loop; a deferred block is left out on none.
* `Node.flow_ends`: jumps that a search of the body does not find are not made.
* `Node.flow_statement`: **step by step, generated code does what the source does**, except that a
  deferred update also runs when an iteration leaves the loop.
-/

namespace SwiftScribe

open Swift

/-! ## The source -/

/-- What a statement shows while it runs. -/
inductive Node.Step where
  /-- An expression, a declaration or a statement with no others inside has run. -/
  | done (node : Node)
  | tested (test : Node) (outcome : Bool)
  /-- A loop over keys or values has looked for the next one. -/
  | looked (loop : Node) (found : Bool)
  /-- An iteration has left a `for` with this update and this body. It is a mark for the reader of the
  run: nothing happens. -/
  | passed (update body : Node)

mutual
/-- **What is seen of a statement.** The labels are those that are attached to it. Statements of other
kinds are single steps. -/
def Node.flow (rounds : Nat) (labels : List String) : Node → Flow Node.Step
  | .blockStatement body => flowAll rounds body
  | .breakStatement label => .stop (.breaks (label.map Identifier.name))
  | .continueStatement label => .stop (.continues (label.map Identifier.name))
  | .returnStatement argument => .tell (argument.toList.map .done) (.stop .returns)
  | .throwStatement argument => .tell [.done argument] (.stop .throws)
  | .ifStatement test consequent none =>
    .test (fun outcome => [.tested test outcome]) fun outcome =>
      if outcome then consequent.flow rounds [] else .stop .normal
  | .ifStatement test consequent (some alternate) =>
    .test (fun outcome => [.tested test outcome]) fun outcome =>
      if outcome then consequent.flow rounds [] else alternate.flow rounds []
  | .whileStatement test body =>
    .whileLoop rounds labels (some fun outcome => [.tested test outcome]) (body.flow rounds [])
  | .doWhileStatement body test =>
    .repeatLoop rounds labels (body.flow rounds []) fun outcome => [.tested test outcome]
  | .forStatement init test update body =>
    .tell (init.toList.map fun init => .done init.alone)
      (.stepLoop rounds labels (test.map fun test outcome => [.tested test outcome])
        (body.flow rounds [])
        (update.toList.map fun update => .done update.alone)
        (update.toList.map fun update => .passed update body))
  | loop@(.forInStatement _ _ body _) =>
    .whileLoop rounds labels (some fun found => [.looked loop found]) (body.flow rounds [])
  | loop@(.forOfStatement _ _ body) =>
    .whileLoop rounds labels (some fun found => [.looked loop found]) (body.flow rounds [])
  | .labeledStatement label body => .labeled label.name (body.flow rounds (label.name :: labels))
  | other => .tell [.done other] (.stop .normal)

/-- Statements one after the other. -/
def flowAll (rounds : Nat) : List Node → Flow Node.Step
  | [] => .stop .normal
  | node :: rest => (node.flow rounds []).before (flowAll rounds rest)
end

/-! ## Generated code -/

namespace Swift

/-- What a generated statement shows while it runs. -/
inductive Statement.Step where
  | done (text : String)
  | tested (text : String) (outcome : Bool)
deriving DecidableEq

/-- A text runs, unless it is empty. -/
def ran (text : String) : List Statement.Step := if text = "" then [] else [.done text]

mutual
/-- **What is seen of a generated statement.** Labels go to the loop that they are attached to; those
on a scope reach no loop inside. -/
def Statement.flow (rounds : Nat) (labels : List String) : Statement → Flow Statement.Step
  | .simple text => .tell (ran text) (.stop .normal)
  | .breaks label => .stop (.breaks (label.map Identifier.name))
  | .continues label => .stop (.continues (label.map Identifier.name))
  | .returns value => .tell (value.toList.flatMap ran) (.stop .returns)
  | .throws value => .tell (ran value) (.stop .throws)
  | .block items => flowItems rounds items
  | .branch test body none =>
    .test (fun outcome => [.tested test outcome]) fun outcome =>
      if outcome then flowItems rounds body else .stop .normal
  | .branch test body (some alternate) =>
    .test (fun outcome => [.tested test outcome]) fun outcome =>
      if outcome then flowItems rounds body else alternate.flow rounds []
  | .whileLoop test body =>
    .whileLoop rounds labels (test.map fun test outcome => [.tested test outcome])
      (flowItems rounds body)
  | .repeatLoop body test =>
    .repeatLoop rounds labels (flowItems rounds body) fun outcome => [.tested test outcome]
  | .forLoop head body =>
    .whileLoop rounds labels (some fun outcome => [.tested head outcome]) (flowItems rounds body)
  | .scope items => flowItems rounds items
  | .deferred items => flowItems rounds items
  | .labeled label body => .labeled label.name (body.flow rounds (label.name :: labels))

/-- **The statements of a scope.** What is deferred waits for the others, however they end. -/
def flowItems (rounds : Nat) : List Statement → Flow Statement.Step
  | [] => .stop .normal
  | .deferred items :: rest =>
    (flowItems rounds rest).andThen fun ending => (flowItems rounds items).before (.stop ending)
  | item :: rest => (item.flow rounds []).before (flowItems rounds rest)
end

end Swift

/-! ## The same steps in other words -/

/-- **How a step of the source is seen in generated code.** -/
def Node.Step.seen (code : Node → String) : Node.Step → List Statement.Step
  | .done node => ran (code node)
  | .tested test outcome => [.tested (code test) outcome]
  | .looked loop found => [.tested (loop.head code) found]
  | .passed _ _ => []

/-- Whether an update is deferred, and there is something to run. -/
def deferredUpdate (code : Node → String) (update body : Node) : Bool :=
  body.containsContinue && code update.alone ≠ ""

/-- **What generated code shows** in the place of a step: a deferred update runs where an iteration
leaves the loop. -/
def Node.Step.made (code : Node → String) : Node.Step → List Statement.Step
  | .passed update body => if deferredUpdate code update body then ran (code update.alone) else []
  | step => step.seen code

/-! ## Jumps that are not there -/

/-- Whether a node is a `continue` of some sort: a plain one that belongs to no loop inside, or one
with a label of interest. -/
def Node.isSkip (plain : Bool) (named : String → Bool) : Node → Bool → Bool
  | .continueStatement none, inLoop => plain && !inLoop
  | .continueStatement (some label), _ => named label.name
  | _, _ => false

theorem Node.isContinueOutwards_eq :
    Node.isContinueOutwards = Node.isSkip true fun _ => true := by
  funext node inLoop
  cases node with
  | continueStatement label => cases label <;> simp [Node.isContinueOutwards, Node.isSkip]
  | _ => rfl

/-- An ending that is no such jump. -/
def Ending.Spares (plain : Bool) (named : String → Bool) (inLoop : Bool) : Ending → Prop
  | .continues none => (plain && !inLoop) = false
  | .continues (some label) => named label = false
  | _ => True

namespace Ending

variable {plain inLoop : Bool} {named : String → Bool} {ending : Ending}

theorem Spares.behind (h : ending.Spares plain named inLoop) (label : String) :
    (ending.behind label).Spares plain named inLoop := by
  cases ending with
  | breaks target =>
    cases target with
    | none => trivial
    | some target =>
      show Spares plain named inLoop (if target = label then .normal else .breaks (some target))
      split <;> trivial
  | _ => exact h

/-- Behind a loop there is no plain `continue` left. -/
theorem Spares.outside (h : ending.Spares plain named true) {labels : List String}
    (hs : ending.stays labels = false) : ending.outside.Spares plain named inLoop := by
  cases ending with
  | breaks target => cases target <;> trivial
  | continues target =>
    cases target with
    | none => cases hs
    | some target => exact h
  | _ => trivial

/-- Where no jump names some labels, it makes no difference that a loop has them. -/
theorem Spares.stays_eq {labels : List String} (h : ending.Spares false labels.contains inLoop) :
    ending.stays [] = ending.stays labels := by
  cases ending with
  | continues target =>
    cases target with
    | none => rfl
    | some target => exact Eq.symm h
  | _ => rfl

/-- Where no jump goes to the next iteration, only the end of the body does. -/
theorem Spares.eq_normal (h : ending.Spares true (fun _ => true) false) {labels : List String}
    (hs : ending.stays labels) : ending = .normal := by
  cases ending with
  | normal => rfl
  | continues target => cases target <;> cases h
  | _ => cases hs

end Ending

mutual
/-- **A jump that a search does not find is not made.** -/
theorem Node.flow_ends {plain : Bool} {named : String → Bool} {inLoop : Bool} (rounds : Nat)
    (labels : List String) (node : Node)
    (h : node.search (Node.isSkip plain named) inLoop = false) :
    (node.flow rounds labels).Ends (Ending.Spares plain named inLoop) := by
  cases node with
  | blockStatement body =>
    simp [Node.search] at h
    exact flowAll_ends rounds body h.2
  | breakStatement label => exact .stop trivial
  | continueStatement label => cases label <;> exact .stop h
  | returnStatement argument => exact .tell _ (.stop trivial)
  | throwStatement argument => exact .tell _ (.stop trivial)
  | ifStatement test consequent alternate =>
    cases alternate with
    | none =>
      simp [Node.search] at h
      refine .test _ trivial fun outcome => ?_
      split
      · exact Node.flow_ends rounds [] consequent h.2
      · exact .stop trivial
    | some alternate =>
      simp [Node.search] at h
      refine .test _ trivial fun outcome => ?_
      split
      · exact Node.flow_ends rounds [] consequent h.1.2
      · exact Node.flow_ends rounds [] alternate h.2
  | labeledStatement label body =>
    simp [Node.search] at h
    exact .andThen trivial (Node.flow_ends rounds _ body h.2) fun ending he =>
      .stop (he.behind label.name)
  | whileStatement test body =>
    simp [Node.search] at h
    exact .stepLoop trivial trivial (Node.flow_ends rounds [] body h.2)
      (fun _ he hs => he.outside hs) _ _ _
  | doWhileStatement body test =>
    simp [Node.search] at h
    exact .repeatLoop trivial trivial (Node.flow_ends rounds [] body h.2)
      (fun _ he hs => he.outside hs) _
  | forStatement init test update body =>
    simp [Node.search] at h
    exact .tell _ (.stepLoop trivial trivial (Node.flow_ends rounds [] body h.2)
      (fun _ he hs => he.outside hs) _ _ _)
  | forInStatement left right body each =>
    simp [Node.search] at h
    exact .stepLoop trivial trivial (Node.flow_ends rounds [] body h.2)
      (fun _ he hs => he.outside hs) _ _ _
  | forOfStatement left right body =>
    simp [Node.search] at h
    exact .stepLoop trivial trivial (Node.flow_ends rounds [] body h.2)
      (fun _ he hs => he.outside hs) _ _ _
  | _ => exact .tell _ (.stop trivial)

theorem flowAll_ends {plain : Bool} {named : String → Bool} {inLoop : Bool} (rounds : Nat)
    (nodes : List Node) (h : searchAll (Node.isSkip plain named) inLoop nodes = false) :
    (flowAll rounds nodes).Ends (Ending.Spares plain named inLoop) := by
  cases nodes with
  | nil => exact .stop trivial
  | cons node rest =>
    simp [searchAll] at h
    exact .before trivial (Node.flow_ends rounds [] node h.1) (flowAll_ends rounds rest h.2)
end

/-! ## Statements in a scope -/

namespace Swift

theorem flowItems_cons (rounds : Nat) {item : Statement} (h : ∀ items, item ≠ .deferred items)
    (rest : List Statement) :
    flowItems rounds (item :: rest) = (item.flow rounds []).before (flowItems rounds rest) := by
  cases item with
  | deferred items => exact absurd rfl (h items)
  | _ => rfl

/-- A statement does what its content does in a scope. -/
theorem flowItems_inner (rounds : Nat) (statement : Statement) :
    flowItems rounds statement.inner = statement.flow rounds [] := by
  cases statement with
  | block items => rfl
  | deferred items =>
    show (Flow.stop .normal).andThen _ = flowItems rounds items
    rw [Flow.stop_andThen (by decide), Flow.before_stop]
  | _ => exact Flow.before_stop _

theorem flow_otherwise (rounds : Nat) (statement : Statement) :
    statement.otherwise.flow rounds [] = statement.flow rounds [] := by
  cases statement with
  | branch test body alternate => rfl
  | _ => exact flowItems_inner rounds _

theorem flowItems_append (rounds : Nat) {front : List Statement}
    (h : ∀ item ∈ front, ∀ items, item ≠ .deferred items) (back : List Statement) :
    flowItems rounds (front ++ back) = (flowItems rounds front).before (flowItems rounds back) := by
  induction front with
  | nil => exact (Flow.stop_before _).symm
  | cons item rest ih =>
    have hitem := h item List.mem_cons_self
    have hrest := ih fun other hm => h other (List.mem_cons_of_mem _ hm)
    rw [List.cons_append, flowItems_cons rounds hitem, flowItems_cons rounds hitem, hrest,
      Flow.before_assoc]

theorem flowItems_simple (rounds : Nat) (text : String) :
    flowItems rounds [.simple text] = .tell (ran text) (.stop .normal) :=
  flowItems_inner rounds (.simple text)

/-- **What is deferred runs on every way out.** -/
theorem flowItems_deferred (rounds : Nat) (text : String) (items : List Statement) :
    flowItems rounds (.deferred [.simple text] :: items) =
      (flowItems rounds items).andThen fun ending => .tell (ran text) (.stop ending) := by
  show (flowItems rounds items).andThen _ = _
  congr 1
  funext ending
  rw [flowItems_simple, Flow.tell_before, Flow.stop_before]

end Swift

section Translated

variable (code : Node → String)

/-- Only the update of a `for` is deferred. -/
theorem Node.statement_ne_deferred (node : Node) (items : List Statement) :
    node.statement code ≠ .deferred items := by
  cases node with
  | ifStatement test consequent alternate => cases alternate <;> nofun
  | _ => nofun

theorem ne_deferred_of_mem_inner {node : Node} {item : Statement}
    (h : item ∈ (node.statement code).inner) (items : List Statement) : item ≠ .deferred items := by
  cases node with
  | blockStatement body =>
    have hm : item ∈ statements code body := h
    rw [statements_eq_map] at hm
    obtain ⟨inner, -, rfl⟩ := List.mem_map.1 hm
    exact inner.statement_ne_deferred code items
  | ifStatement test consequent alternate =>
    cases alternate <;> exact List.mem_singleton.1 h ▸ nofun
  | _ => exact List.mem_singleton.1 h ▸ nofun

end Translated

/-! ## From the source to generated code -/

mutual
/-- **No `continue` inside a `for` names a label of this very `for`.** -/
def Node.namesNoFor (labels : List String) : Node → Bool
  | .blockStatement body => namesNoForAll body
  | .ifStatement _ consequent none => consequent.namesNoFor []
  | .ifStatement _ consequent (some alternate) =>
    consequent.namesNoFor [] && alternate.namesNoFor []
  | .whileStatement _ body => body.namesNoFor []
  | .doWhileStatement body _ => body.namesNoFor []
  | .forStatement _ _ _ body =>
    !body.search (Node.isSkip false labels.contains) false && body.namesNoFor []
  | .forInStatement _ _ body _ => body.namesNoFor []
  | .forOfStatement _ _ body => body.namesNoFor []
  | .labeledStatement label body => body.namesNoFor (label.name :: labels)
  | _ => true

def namesNoForAll : List Node → Bool
  | [] => true
  | node :: rest => node.namesNoFor [] && namesNoForAll rest
end

section Translated

variable {code : Node → String}

/-- **The loop of a `for`**: wherever the update stands, it follows the iterations that go on. -/
theorem whileLoop_loopItems (rounds : Nat) (labels : List String)
    (steps? : Option (Bool → List Statement.Step)) (update : Option Node) {body : Node}
    (hnames : body.search (Node.isSkip false labels.contains) false = false)
    (hbody : (body.statement code).flow rounds [] =
      (body.flow rounds []).map (Node.Step.made code)) :
    Flow.whileLoop rounds [] steps?
        (flowItems rounds (loopItems body.containsContinue
          ((update.map fun update => code update.alone).getD "") (body.statement code).inner)) =
      Flow.stepLoop rounds labels steps? ((body.flow rounds []).map (Node.Step.made code))
        ((update.toList.map fun update => Node.Step.done update.alone).flatMap (Node.Step.made code))
        ((update.toList.map fun update => Node.Step.passed update body).flatMap
          (Node.Step.made code)) := by
  have hinner : flowItems rounds (body.statement code).inner =
      (body.flow rounds []).map (Node.Step.made code) := by rw [flowItems_inner, hbody]
  -- the labels stand outside the scope, and no jump in the body needs them
  have hlabels : ((body.flow rounds []).map (Node.Step.made code)).Ends
      fun ending => ending.stays [] = ending.stays labels :=
    fun outcomes => (Node.flow_ends rounds [] body hnames outcomes).stays_eq
  cases update with
  | none =>
    show Flow.whileLoop rounds [] steps? (flowItems rounds (body.statement code).inner) = _
    rw [hinner]
    exact Flow.stepLoop_labels hlabels [] []
  | some update =>
    simp only [Option.map_some, Option.getD_some, Option.toList_some, List.map_cons, List.map_nil,
      List.flatMap_cons, List.flatMap_nil, List.append_nil, Node.Step.made, Node.Step.seen]
    by_cases hempty : code update.alone = ""
    · -- an update without text leaves no trace
      have hran : ran (code update.alone) = [] := if_pos hempty
      simp only [loopItems, if_pos hempty, hran, hinner, ite_self]
      exact Flow.stepLoop_labels hlabels [] []
    by_cases hcontinue : body.containsContinue
    · have hdeferred : deferredUpdate code update body = true := by
        simp [deferredUpdate, hcontinue, hempty]
      simp only [loopItems, if_neg hempty, if_pos hcontinue, hdeferred, if_true]
      rw [flowItems_deferred, hinner, Flow.whileLoop_always]
      exact Flow.stepLoop_labels hlabels _ _
    · have htrailing : deferredUpdate code update body = false := by
        simp [deferredUpdate, hcontinue]
      have hsearch : body.search (Node.isSkip true fun _ => true) false = false := by
        rw [← Node.isContinueOutwards_eq]
        exact Bool.eq_false_iff.2 hcontinue
      have hends : ((body.flow rounds []).map (Node.Step.made code)).Ends
          fun ending => ending.stays [] → ending = .normal :=
        fun outcomes => (Node.flow_ends rounds [] body hsearch outcomes).eq_normal
      simp only [loopItems, if_neg hempty, if_neg hcontinue, htrailing, Bool.false_eq_true, if_false]
      rw [flowItems_append rounds fun item hm => ne_deferred_of_mem_inner code hm, hinner,
        flowItems_simple, Flow.whileLoop_last hends]
      exact Flow.stepLoop_labels hlabels _ _

theorem map_done (node : Node) (ending : Ending) :
    (Flow.tell [.done node] (.stop ending)).map (Node.Step.made code) =
      .tell (ran (code node)) (.stop ending) := by
  rw [Flow.map_tell, List.flatMap_singleton]
  rfl

mutual
/-- **Step by step, generated code does what the source does.** -/
theorem Node.flow_statement (rounds : Nat) (labels : List String) (node : Node)
    (h : node.namesNoFor labels) :
    (node.statement code).flow rounds labels =
      (node.flow rounds labels).map (Node.Step.made code) := by
  have hinner {body : Node}
      (h : (body.statement code).flow rounds [] =
        (body.flow rounds []).map (Node.Step.made code)) :
      flowItems rounds (body.statement code).inner =
        (body.flow rounds []).map (Node.Step.made code) := by rw [flowItems_inner, h]
  cases node with
  | blockStatement body => exact flowItems_statements rounds body h
  | breakStatement label => rfl
  | continueStatement label => rfl
  | returnStatement argument =>
    rw [Node.statement, Statement.flow, Node.flow, Flow.map_tell]
    cases argument <;> rfl
  | throwStatement argument => exact (map_done argument .throws).symm
  | ifStatement test consequent alternate =>
    cases alternate with
    | none =>
      have hbody := hinner (Node.flow_statement rounds [] consequent h)
      rw [Node.statement, Statement.flow, Node.flow, Flow.map_test, hbody]
      congr 1
      funext outcome
      split <;> rfl
    | some alternate =>
      simp [Node.namesNoFor] at h
      have hbody := hinner (Node.flow_statement rounds [] consequent h.1)
      have hother := Node.flow_statement rounds [] alternate h.2
      rw [Node.statement, Statement.flow, Node.flow, Flow.map_test, hbody, flow_otherwise, hother]
      congr 1
      funext outcome
      split <;> rfl
  | labeledStatement label body =>
    rw [Node.statement, Statement.flow, Node.flow, Flow.map_labeled,
      Node.flow_statement rounds _ body h]
  | whileStatement test body =>
    rw [Node.statement, Statement.flow, Node.flow, Flow.map_whileLoop,
      hinner (Node.flow_statement rounds [] body h)]
    rfl
  | doWhileStatement body test =>
    rw [Node.statement, Statement.flow, Node.flow, Flow.map_repeatLoop,
      hinner (Node.flow_statement rounds [] body h)]
    rfl
  | forStatement init test update body =>
    simp [Node.namesNoFor] at h
    have hloop := whileLoop_loopItems rounds labels
      ((test.map code).map fun test outcome => [.tested test outcome]) update h.1
      (Node.flow_statement rounds [] body h.2)
    have htest : (test.map fun test outcome => [Node.Step.tested test outcome]).map
        (fun steps outcome => (steps outcome).flatMap (Node.Step.made code)) =
          (test.map code).map fun test outcome => [.tested test outcome] := by
      cases test <;> rfl
    rw [Node.statement, Statement.flow, Node.flow, Flow.map_tell, Flow.map_stepLoop, htest, ← hloop]
    have hwhile (test : Option String) (items : List Statement) :
        flowItems rounds [.whileLoop test items] = (Statement.whileLoop test items).flow rounds [] :=
      flowItems_inner rounds (.whileLoop test items)
    cases init with
    | none => exact hwhile _ _
    | some init =>
      show (Flow.tell _ (.stop .normal)).before (flowItems rounds [.whileLoop _ _]) = _
      rw [Flow.tell_before, Flow.stop_before, hwhile, Option.toList_some, List.map_singleton,
        List.flatMap_singleton]
      rfl
  | forInStatement left right body each =>
    rw [Node.statement, Statement.flow, Node.flow, Flow.map_whileLoop,
      hinner (Node.flow_statement rounds [] body h)]
    rfl
  | forOfStatement left right body =>
    rw [Node.statement, Statement.flow, Node.flow, Flow.map_whileLoop,
      hinner (Node.flow_statement rounds [] body h)]
    rfl
  | _ => exact (map_done _ .normal).symm

theorem flowItems_statements (rounds : Nat) (nodes : List Node) (h : namesNoForAll nodes) :
    flowItems rounds (statements code nodes) =
      (flowAll rounds nodes).map (Node.Step.made code) := by
  cases nodes with
  | nil => rfl
  | cons node rest =>
    simp [namesNoForAll] at h
    rw [statements, flowItems_cons rounds (node.statement_ne_deferred code), flowAll, Flow.map_before,
      Node.flow_statement rounds [] node h.1, flowItems_statements rounds rest h.2]
end

/-! ## Runs -/

theorem length_seen_le (steps : List Node.Step) :
    (steps.flatMap (Node.Step.seen code)).length ≤ (steps.flatMap (Node.Step.made code)).length := by
  induction steps with
  | nil => exact Nat.le_refl 0
  | cons step rest ih =>
    rw [List.flatMap_cons, List.flatMap_cons, List.length_append, List.length_append]
    cases step with
    | passed update body => exact Nat.add_le_add (Nat.zero_le _) ih
    | _ => exact Nat.add_le_add (Nat.le_refl _) ih

/-- **Two readings agree** where no deferred update is in the way. -/
theorem made_eq_seen_iff (steps : List Node.Step) :
    steps.flatMap (Node.Step.made code) = steps.flatMap (Node.Step.seen code) ↔
      ∀ update body, .passed update body ∈ steps → deferredUpdate code update body = false := by
  induction steps with
  | nil => simp
  | cons step rest ih =>
    by_cases hstep : ∃ update body, step = .passed update body ∧ deferredUpdate code update body
    · obtain ⟨update, body, rfl, hdeferred⟩ := hstep
      have hran : Node.Step.made code (.passed update body) = [.done (code update.alone)] := by
        have hne : code update.alone ≠ "" := by simp [deferredUpdate] at hdeferred; exact hdeferred.2
        rw [Node.Step.made, if_pos hdeferred, ran, if_neg hne]
      refine iff_of_false (fun h => ?_) fun h => ?_
      · -- the deferred update is one step more, and none is missing elsewhere
        have hlength := congrArg List.length h
        have hle : (rest.flatMap (Node.Step.seen code)).length ≤
            (rest.flatMap (Node.Step.made code)).length := length_seen_le rest
        rw [List.flatMap_cons, List.flatMap_cons, hran, Node.Step.seen] at hlength
        simp at hlength hle
        omega
      · have hnot := h update body List.mem_cons_self
        rw [hdeferred] at hnot
        cases hnot
    · have hsame : Node.Step.made code step = Node.Step.seen code step := by
        cases step with
        | passed update body =>
          refine if_neg fun hdeferred => hstep ⟨update, body, rfl, hdeferred⟩
        | _ => rfl
      rw [List.flatMap_cons, List.flatMap_cons, hsame, List.append_cancel_left_eq, ih]
      refine ⟨fun h update body hm => ?_, fun h update body hm =>
        h update body (List.mem_cons_of_mem _ hm)⟩
      rcases List.mem_cons.1 hm with rfl | hm
      · exact Bool.eq_false_iff.2 fun hdeferred => hstep ⟨update, body, rfl, hdeferred⟩
      · exact h update body hm

end Translated

namespace Node

/-- **What generated code does.** The text of a statement is printed from a tree that runs as the
statement does: it ends in the same way with the same tests, and it shows the same steps exactly where
no iteration leaves a `for` whose update is deferred. There the update runs once more. -/
theorem generate_runs {path : TypePath} {node : Node} {hints records : HintTable} {text : String}
    {labels : List String} (hnames : node.namesNoFor labels)
    (h : (node.generate path hints records).1 = .ok text) :
    let code := Node.textOn hints.answer? path
    (node.statement code).text = text ∧
      ∀ rounds outcomes,
        let source := node.flow rounds labels outcomes
        let made := (node.statement code).flow rounds labels outcomes
        made.ending = source.ending ∧ made.rest = source.rest ∧
          made.shown = source.shown.flatMap (Step.made code) ∧
          (made.shown = source.shown.flatMap (Step.seen code) ↔
            ∀ update body, .passed update body ∈ source.shown →
              deferredUpdate code update body = false) := by
  intro code
  rw [Node.generate_eq] at h
  refine ⟨(Node.write_statement hints.answer? path node text h).symm, fun rounds outcomes => ?_⟩
  intro source made
  have hmade : made = ((node.flow rounds labels).map (Step.made code)) outcomes :=
    congrFun (node.flow_statement rounds labels hnames) outcomes
  have hshown : made.shown = source.shown.flatMap (Step.made code) := by rw [hmade]; rfl
  refine ⟨by rw [hmade]; rfl, by rw [hmade]; rfl, hshown, ?_⟩
  rw [hshown]
  exact made_eq_seen_iff source.shown

/-- `for (; t; u()) { if (a) { continue; } break; }` -/
def leftLoop : Node :=
  .forStatement none (some (.identifier ⟨"t"⟩)) (some (.callExpression (.identifier ⟨"u"⟩) []))
    (.blockStatement
      [.ifStatement (.identifier ⟨"a"⟩) (.blockStatement [.continueStatement none]) none,
        .breakStatement none])

/-- `L: for (; t; u()) { continue L; }` -/
def namedLoop : Node :=
  .labeledStatement ⟨"L"⟩
    (.forStatement none (some (.identifier ⟨"t"⟩)) (some (.callExpression (.identifier ⟨"u"⟩) []))
      (.blockStatement [.continueStatement (some ⟨"L"⟩)]))

theorem generate_leftLoop : (leftLoop.generate [] .empty .empty).1 =
    .ok ("do \x7b\nwhile t \x7b\ndefer \x7b\nu()\n\x7d\nif a \x7b\ncontinue\n\x7d\nbreak\n\x7d"
      ++ "\n\x7d") := by
  rfl

/-- Before the loop is left, its text shows what the source does. -/
theorem generate_runs_left :
    leftLoop.namesNoFor [] ∧ (∃ text, (leftLoop.generate [] .empty .empty).1 = .ok text) ∧
      (∀ rounds outcomes,
        ((leftLoop.statement (Node.textOn HintTable.empty.answer? [])).flow rounds []
          outcomes).ending = (leftLoop.flow rounds [] outcomes).ending) ∧
      ((leftLoop.statement (Node.textOn HintTable.empty.answer? [])).flow 2 [] [true, true]).shown =
        [.tested "t" true, .tested "a" true, .done "u()"] := by
  have hnames : leftLoop.namesNoFor [] := by decide
  have hruns := (generate_runs hnames generate_leftLoop).2
  have hshown : (leftLoop.flow 2 [] [true, true]).shown =
      [.tested (.identifier ⟨"t"⟩) true, .tested (.identifier ⟨"a"⟩) true,
        .done (.expressionStatement (.callExpression (.identifier ⟨"u"⟩) []) none)] := rfl
  obtain ⟨-, -, -, hsame⟩ := hruns 2 [true, true]
  refine ⟨hnames, ⟨_, generate_leftLoop⟩, fun rounds outcomes => (hruns rounds outcomes).1, ?_⟩
  rw [hsame.2 (by rw [hshown]; simp), hshown]
  rfl

/-- **The update runs although the loop is left by a `break`**, and a `continue` that names the loop
does not get back to it. -/
theorem runs_differ :
    (leftLoop.generate [] .empty .empty).1 =
        .ok (leftLoop.statement (Node.textOn HintTable.empty.answer? [])).text ∧
      (leftLoop.statement (Node.textOn HintTable.empty.answer? [])).text =
        "do \x7b\nwhile t \x7b\ndefer \x7b\nu()\n\x7d\nif a \x7b\ncontinue\n\x7d\nbreak\n\x7d\n\x7d" ∧
      (leftLoop.flow 2 [] [true, false]).shown.flatMap
        (Step.seen (Node.textOn HintTable.empty.answer? [])) = [.tested "t" true, .tested "a" false] ∧
      ((leftLoop.statement (Node.textOn HintTable.empty.answer? [])).flow 2 []
        [true, false]).shown = [.tested "t" true, .tested "a" false, .done "u()"] ∧
      (namedLoop.generate [] .empty .empty).1 =
        .ok (namedLoop.statement (Node.textOn HintTable.empty.answer? [])).text ∧
      (namedLoop.statement (Node.textOn HintTable.empty.answer? [])).text =
        "L: do \x7b\nwhile t \x7b\ndefer \x7b\nu()\n\x7d\ncontinue L\n\x7d\n\x7d" ∧
      (namedLoop.flow 2 [] [true, false]).ending = .normal ∧
      ((namedLoop.statement (Node.textOn HintTable.empty.answer? [])).flow 2 []
        [true, false]).ending = .continues (some "L") := by
  refine ⟨generate_leftLoop, rfl, rfl, rfl, rfl, rfl, rfl, rfl⟩

end Node

end SwiftScribe
