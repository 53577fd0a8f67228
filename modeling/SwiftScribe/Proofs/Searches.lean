import SwiftScribe.Proofs.Failures

/-!
# What the search of the control flow finds

The search goes on from a few kinds of nodes, through a few of their parts. The reference goes
through every part of every node and stops at functions and classes only. In a tree where each node
stands in a slot that the grammar gives to it, both come to the same jumps.

* `Kind.role`, `Kind.Admits`: the slots of the grammar; `Node.Grammatical`: the trees that keep to
  them.
* `Node.Reaches`: **a way down on which there is no function and no class**, and whether a loop is
  on it.
* `Node.misses_step`: **a search that hits nothing**, told from the parts of a node.
* `Node.seek_iff_reaches`: **a search that hits something**, told from the ways down a whole tree.
* `Node.search_exact`: **the search finds the jumps that can be reached**, and no others.
-/

namespace SwiftScribe

/-! ## The grammar -/

/-- What a node is in the grammar. -/
inductive Role where
  | statement
  | declaration
  /-- A part of a statement that holds statements itself, or a whole program. -/
  | component
  /-- An expression, a pattern, or anything else that holds statements in functions and classes
  only. -/
  | other
deriving DecidableEq

/-- The role of the nodes of a kind. -/
def Kind.role : Kind → Role
  | .blockStatement | .breakStatement | .continueStatement | .debuggerStatement
  | .doWhileStatement | .emptyStatement | .expressionStatement | .forInStatement
  | .forOfStatement | .forStatement | .ifStatement | .labeledStatement | .returnStatement
  | .switchStatement | .throwStatement | .tryStatement | .whileStatement | .withStatement =>
    .statement
  | .classDeclaration | .functionDeclaration | .variableDeclaration => .declaration
  | .catchClause | .program | .switchCase => .component
  | _ => .other

/-- **The slots for statements**: under which key of a node a statement may stand. -/
def Kind.isStatementSlot : Kind → String → Bool
  | .program, "body" | .blockStatement, "body" | .switchCase, "consequent"
  | .ifStatement, "consequent" | .ifStatement, "alternate"
  | .labeledStatement, "body" | .withStatement, "body"
  | .whileStatement, "body" | .doWhileStatement, "body"
  | .forStatement, "body" | .forInStatement, "body" | .forOfStatement, "body"
  | .tryStatement, "block" | .tryStatement, "finalizer" | .catchClause, "body"
  | .functionDeclaration, "body" | .functionExpression, "body"
  | .arrowFunctionExpression, "body" => true
  | _, _ => false

/-- The slots for declarations: a declaration may also stand in the place of a statement. -/
def Kind.isDeclarationSlot : Kind → String → Bool
  | .forStatement, "init" | .forInStatement, "left" | .forOfStatement, "left"
  | .exportDefaultDeclaration, "declaration" | .exportNamedDeclaration, "declaration" => true
  | kind, key => kind.isStatementSlot key

/-- The slots for components. -/
def Kind.componentSlot? : Kind → String → Option Kind
  | .switchStatement, "cases" => some .switchCase
  | .tryStatement, "handler" => some .catchClause
  | _, _ => none

/-- **What may stand in a slot.** Statements, declarations and components are bound to slots. -/
def Kind.Admits (kind : Kind) (key : String) (inner : Kind) : Prop :=
  match inner.role with
  | .statement => kind.isStatementSlot key = true
  | .declaration => kind.isDeclarationSlot key = true
  | .component => kind.componentSlot? key = some inner
  | .other => True

/-- The key of the slot that a part stands in. -/
def NodePart.key (part : NodePart) : String :=
  match part.path with
  | .name key :: _ => key
  | _ => ""

/-- The parts of a node stand in slots for them. -/
def Node.Placed (node : Node) : Prop :=
  ∀ part ∈ node.parts, node.kind.Admits part.key part.node.kind

/-- **A grammatical tree**: statements, declarations and the components of statements stand in slots
for them. So expressions hold statements in functions and classes only. -/
def Node.Grammatical (node : Node) : Prop := node.Everywhere Node.Placed

namespace NodePart

variable {kind : Kind} {access : Access} {key : String}

theorem admits_under {node? : Option Node} :
    (∀ part ∈ under access key node?, kind.Admits part.key part.node.kind) ↔
      ∀ node ∈ node?, kind.Admits key node.kind := by
  cases node? <;> simp [under, NodePart.key]

theorem admits_among {items : List (Option Node)} :
    (∀ part ∈ among access key items, kind.Admits part.key part.node.kind) ↔
      ∀ item ∈ items, ∀ node ∈ item, kind.Admits key node.kind := by
  constructor
  · intro h item hitem node hnode
    cases hnode
    obtain ⟨index, hi⟩ := List.mem_iff_getElem?.1 hitem
    exact h _ (mem_among_iff.2 ⟨index, node, hi, rfl⟩)
  · intro h part hp
    obtain ⟨index, node, hi, rfl⟩ := mem_among_iff.1 hp
    exact h _ (List.mem_of_getElem? hi) node rfl

theorem admits_child {node? : Option Node} :
    (∀ part ∈ child key node?, kind.Admits part.key part.node.kind) ↔
      ∀ node ∈ node?, kind.Admits key node.kind := admits_under

theorem admits_children {nodes : List Node} :
    (∀ part ∈ children key nodes, kind.Admits part.key part.node.kind) ↔
      ∀ node ∈ nodes, kind.Admits key node.kind := by
  rw [children, admits_among]
  simp

end NodePart

/-! ## Ways down -/

/-- Functions and classes. -/
def Node.isScope : Node → Bool
  | .functionDeclaration _ | .functionExpression _ | .arrowFunctionExpression .. => true
  | .classDeclaration _ | .classExpression _ => true
  | _ => false

def Node.isLoop : Node → Bool
  | .whileStatement .. | .doWhileStatement .. => true
  | .forStatement .. | .forInStatement .. | .forOfStatement .. => true
  | _ => false

/-- **A way from a node down to another one**, or to itself, on which there is no function and no
class above its end. It may lead through any part of a node, and remembers whether a loop is above
its end. -/
inductive Node.Reaches : Node → Bool → Node → Prop
  | here (node : Node) : node.Reaches false node
  | down {node inner : Node} {inLoop : Bool} {part : NodePart} (hs : node.isScope = false)
    (hp : part ∈ node.parts) (h : part.node.Reaches inLoop inner) :
    node.Reaches (node.isLoop || inLoop) inner

/-! ## Searches that hit nothing -/

/-- **A search for jumps**: it hits nothing but `continue` and `return`. -/
def Aimed (hit : Node → Bool → Bool) : Prop :=
  ∀ node inLoop, hit node inLoop = true → node.kind ∈ [.continueStatement, .returnStatement]

/-- **The search from any node**: it goes on from the components of statements, too, and from a
whole program. -/
def Node.seek (hit : Node → Bool → Bool) (inLoop : Bool) : Node → Bool
  | .catchClause ⟨_, body⟩ | .switchCase ⟨_, body⟩ | .program _ body => searchAll hit inLoop body
  | node => node.search hit inLoop

/-- The search from a node hits nothing. -/
def Node.Misses (hit : Node → Bool → Bool) (inLoop : Bool) (node : Node) : Prop :=
  node.seek hit inLoop = false

/-- Kinds of nodes from which no jump can be reached without a function or a class on the way. -/
def Kind.IsSilent (kind : Kind) : Prop := kind.role = .declaration ∨ kind.role = .other

namespace Kind.Admits

variable {kind inner : Kind} {key : String}

theorem ne_component (h : kind.Admits key inner) (hc : kind.componentSlot? key = none) :
    inner.role ≠ .component := by
  intro hrole
  rw [Admits, hrole, hc] at h
  cases h

/-- **Outside of the slots for statements and components nodes are silent.** -/
theorem isSilent (h : kind.Admits key inner) (hs : kind.isStatementSlot key = false)
    (hc : kind.componentSlot? key = none) : inner.IsSilent := by
  have hcomponent := h.ne_component hc
  cases hrole : inner.role with
  | statement =>
    rw [Admits, hrole, hs] at h
    cases h
  | declaration => exact .inl hrole
  | component => exact absurd hrole hcomponent
  | other => exact .inr hrole

end Kind.Admits

section Misses

variable {hit : Node → Bool → Bool} {inLoop : Bool} {node : Node}

theorem Aimed.miss (hh : Aimed hit) (h : node.kind ∉ [.continueStatement, .returnStatement])
    (inLoop : Bool) : hit node inLoop = false := by
  cases hhit : hit node inLoop with
  | false => rfl
  | true => exact absurd (hh node inLoop hhit) h

theorem Kind.IsSilent.notMem {kind : Kind} (h : kind.IsSilent) :
    kind ∉ [.continueStatement, .returnStatement] := by
  intro hm
  simp only [List.mem_cons, List.not_mem_nil, or_false] at hm
  rcases hm with rfl | rfl <;> rcases h with h | h <;> cases h

namespace Node

/-- Outside of components it is the same search. -/
theorem seek_eq_search (h : node.kind.role ≠ .component) :
    node.seek hit inLoop = node.search hit inLoop := by
  cases node <;> first | rfl | exact absurd rfl h

theorem misses_iff (h : node.kind.role ≠ .component) :
    node.Misses hit inLoop ↔ node.search hit inLoop = false := by
  rw [Misses, seek_eq_search h]

theorem misses_statement (h : node.kind.role = .statement) :
    node.Misses hit inLoop ↔ node.search hit inLoop = false := misses_iff (by rw [h]; decide)

theorem misses_silent (hh : Aimed hit) (h : node.kind.IsSilent) : node.Misses hit inLoop := by
  have hmiss := hh.miss h.notMem inLoop
  cases node <;> first | exact hmiss | (rcases h with h | h <;> cases h)

/-- A part outside of the slots for statements and components. -/
theorem misses_slot {kind : Kind} {key : String} (hh : Aimed hit) (h : kind.Admits key node.kind)
    (hs : kind.isStatementSlot key = false) (hc : kind.componentSlot? key = none) :
    node.Misses hit inLoop := misses_silent hh (h.isSilent hs hc)

end Node

/-! ### Lists of statements -/

theorem searchAll_eq_false_iff {nodes : List Node}
    (h : ∀ node ∈ nodes, node.kind.role ≠ .component) :
    searchAll hit inLoop nodes = false ↔ ∀ node ∈ nodes, node.Misses hit inLoop := by
  induction nodes with
  | nil => simp [searchAll]
  | cons node rest ih =>
    have hnode : node.Misses hit inLoop ↔ node.search hit inLoop = false :=
      Node.misses_iff (h node List.mem_cons_self)
    have hrest := ih fun other hm => h other (List.mem_cons_of_mem _ hm)
    rw [searchAll, Bool.or_eq_false_iff, ← hnode, hrest, List.forall_mem_cons]

theorem searchCases_eq_false_iff {cases : List SwitchCase} :
    searchCases hit inLoop cases = false ↔
      ∀ case ∈ cases, (Node.switchCase case).Misses hit inLoop := by
  induction cases with
  | nil => simp [searchCases]
  | cons case rest ih =>
    obtain ⟨test, consequent⟩ := case
    rw [searchCases, Bool.or_eq_false_iff, ih, List.forall_mem_cons]
    rfl

namespace Node

open NodePart

theorem misses_block (hh : Aimed hit) {body : List Node} :
    (Node.blockStatement body).Misses hit inLoop ↔ searchAll hit inLoop body = false := by
  have hmiss : hit (.blockStatement body) inLoop = false := hh.miss (by simp [Node.kind]) inLoop
  rw [misses_statement rfl]
  simp [search, hmiss]

theorem misses_handler {clause : CatchClause} :
    (Node.catchClause clause).Misses hit inLoop ↔ searchAll hit inLoop clause.body = false := by
  cases clause
  exact .rfl

/-! ### One step down -/

/-- Nothing is hit from the parts of a silent node, either. -/
theorem misses_step_of_silent (hh : Aimed hit) (hn : node.Placed) (hs : node.kind.IsSilent) :
    node.Misses hit inLoop ↔
      hit node inLoop = false ∧ (node.isScope = false → ∀ part ∈ node.parts,
        part.node.Misses hit (node.isLoop || inLoop)) := by
  have hmiss : hit node inLoop = false := hh.miss hs.notMem inLoop
  refine iff_of_true (misses_silent hh hs) ⟨hmiss, fun hscope part hp => ?_⟩
  have hslots (key : String) :
      node.kind.isStatementSlot key = false ∧ node.kind.componentSlot? key = none := by
    cases node <;> first
      | exact ⟨rfl, rfl⟩
      | (rcases hs with h | h <;> cases h; done)
      | cases hscope
  exact misses_slot hh (hn part hp) (hslots part.key).1 (hslots part.key).2

/-- **A search from a node hits nothing** if it does not hit the node, and hits nothing from the
parts of it, unless it is a function or a class. Whether a part is looked at is up to its slot: in
the others stands nothing that the search could hit. -/
theorem misses_step (hh : Aimed hit) (hn : node.Placed) :
    node.Misses hit inLoop ↔
      hit node inLoop = false ∧ (node.isScope = false → ∀ part ∈ node.parts,
        part.node.Misses hit (node.isLoop || inLoop)) := by
  cases node with
  -- statements without statements inside
  | breakStatement label | continueStatement label =>
    have hlabel (id : Identifier) : (Node.identifier id).Misses hit inLoop :=
      misses_silent hh (.inr rfl)
    rw [misses_statement rfl]
    simp only [parts, forall_held_iff]
    simp [search, isScope, isLoop, hlabel]
  | debuggerStatement | emptyStatement =>
    rw [misses_statement rfl]
    simp [search, parts]
  | expressionStatement argument | throwStatement argument =>
    simp only [Placed, parts, admits_child] at hn
    have hargument : argument.Misses hit inLoop := misses_slot hh (hn argument rfl) rfl rfl
    rw [misses_statement rfl]
    simp only [search, parts, forall_child_iff]
    simp [isScope, isLoop, hargument]
  | returnStatement argument =>
    simp only [Placed, parts, admits_child] at hn
    have hargument : ∀ node ∈ argument, node.Misses hit inLoop := fun node hm =>
      misses_slot hh (hn node hm) rfl rfl
    rw [misses_statement rfl]
    simp only [search, parts, forall_child_iff]
    simpa [isScope, isLoop] using fun _ => hargument
  -- blocks and branches
  | blockStatement body =>
    simp only [Placed, parts, admits_children] at hn
    have hbody : ∀ node ∈ body, node.kind.role ≠ .component := fun node hm =>
      (hn node hm).ne_component rfl
    rw [misses_statement rfl]
    simp only [search, parts, forall_children_iff]
    simp [isScope, isLoop, searchAll_eq_false_iff hbody]
  | ifStatement test consequent alternate =>
    simp only [Placed, parts, List.forall_mem_append, admits_child] at hn
    have htest : test.Misses hit inLoop := misses_slot hh (hn.1.1 test rfl) rfl rfl
    have hconsequent := (hn.1.2 consequent rfl).ne_component rfl
    rw [misses_statement rfl]
    simp only [parts, List.forall_mem_append, forall_child_iff]
    cases alternate with
    | none => simp [search, isScope, isLoop, htest, misses_iff hconsequent]
    | some node =>
      have hnode := (hn.2 node rfl).ne_component rfl
      simp [search, isScope, isLoop, htest, misses_iff hconsequent, misses_iff hnode, and_assoc]
  | labeledStatement label body =>
    simp only [Placed, parts, List.forall_mem_append, admits_child] at hn
    have hlabel : (Node.identifier label).Misses hit inLoop := misses_silent hh (.inr rfl)
    have hbody := (hn.2 body rfl).ne_component rfl
    rw [misses_statement rfl]
    simp only [search, parts, List.forall_mem_append, forall_child_iff, forall_held_iff]
    simp [isScope, isLoop, hlabel, misses_iff hbody]
  | switchStatement discriminant cases =>
    simp only [Placed, parts, List.forall_mem_append, admits_child] at hn
    have hdiscriminant : discriminant.Misses hit inLoop :=
      misses_slot hh (hn.1 discriminant rfl) rfl rfl
    rw [misses_statement rfl]
    simp only [search, parts, List.forall_mem_append, forall_child_iff, forall_heldEach_iff]
    simp [isScope, isLoop, hdiscriminant, searchCases_eq_false_iff]
  | tryStatement block handler finalizer =>
    rw [misses_statement rfl]
    simp only [parts, List.forall_mem_append, forall_held_iff]
    rcases handler with _ | ⟨param, body⟩ <;> cases finalizer <;>
      simp [search, isScope, isLoop, misses_handler, misses_block hh, and_assoc]
  -- loops
  | doWhileStatement body test =>
    simp only [Placed, parts, List.forall_mem_append, admits_child] at hn
    have htest : test.Misses hit true := misses_slot hh (hn.2 test rfl) rfl rfl
    have hbody := (hn.1 body rfl).ne_component rfl
    rw [misses_statement rfl]
    simp only [search, parts, List.forall_mem_append, forall_child_iff]
    simp [isScope, isLoop, htest, misses_iff hbody]
  | whileStatement head body | withStatement head body =>
    simp only [Placed, parts, List.forall_mem_append, admits_child] at hn
    have hhead (inLoop : Bool) : head.Misses hit inLoop := misses_slot hh (hn.1 head rfl) rfl rfl
    have hbody := (hn.2 body rfl).ne_component rfl
    rw [misses_statement rfl]
    simp only [search, parts, List.forall_mem_append, forall_child_iff]
    simp [isScope, isLoop, hhead, misses_iff hbody]
  | forStatement init test update body =>
    simp only [Placed, parts, List.forall_mem_append, admits_child] at hn
    obtain ⟨⟨⟨hinit, htest⟩, hupdate⟩, hbody⟩ := hn
    have hinit : ∀ node ∈ init, node.Misses hit true := fun node hm =>
      misses_slot hh (hinit node hm) rfl rfl
    have htest : ∀ node ∈ test, node.Misses hit true := fun node hm =>
      misses_slot hh (htest node hm) rfl rfl
    have hupdate : ∀ node ∈ update, node.Misses hit true := fun node hm =>
      misses_slot hh (hupdate node hm) rfl rfl
    have hbody := (hbody body rfl).ne_component rfl
    rw [misses_statement rfl]
    simp only [search, parts, List.forall_mem_append, forall_child_iff]
    simp_all [isScope, isLoop, misses_iff hbody]
  | forInStatement left right body | forOfStatement left right body =>
    simp only [Placed, parts, List.forall_mem_append, admits_child] at hn
    have hleft : left.Misses hit true := misses_slot hh (hn.1.1 left rfl) rfl rfl
    have hright : right.Misses hit true := misses_slot hh (hn.1.2 right rfl) rfl rfl
    have hbody := (hn.2 body rfl).ne_component rfl
    rw [misses_statement rfl]
    simp only [search, parts, List.forall_mem_append, forall_child_iff]
    simp [isScope, isLoop, hleft, hright, misses_iff hbody]
  -- components
  | catchClause clause =>
    obtain ⟨param, body⟩ := clause
    simp only [Placed, parts, List.forall_mem_append, admits_child] at hn
    have hparam : ∀ node ∈ param, node.Misses hit inLoop := fun node hm =>
      misses_slot hh (hn.1 node hm) rfl rfl
    have hmiss : hit (.catchClause ⟨param, body⟩) inLoop = false :=
      hh.miss (by simp [Node.kind]) inLoop
    simp only [parts, List.forall_mem_append, forall_child_iff, forall_held_iff, misses_handler]
    simpa [isScope, isLoop, misses_block hh, hmiss] using fun _ => hparam
  | switchCase case =>
    obtain ⟨test, consequent⟩ := case
    simp only [Placed, parts, List.forall_mem_append, admits_child, admits_children] at hn
    have htest : ∀ node ∈ test, node.Misses hit inLoop := fun node hm =>
      misses_slot hh (hn.1 node hm) rfl rfl
    have hmiss : hit (.switchCase ⟨test, consequent⟩) inLoop = false :=
      hh.miss (by simp [Node.kind]) inLoop
    have hsearch : (Node.switchCase ⟨test, consequent⟩).Misses hit inLoop ↔ _ :=
      searchAll_eq_false_iff fun node hm => (hn.2 node hm).ne_component rfl
    simp only [parts, List.forall_mem_append, forall_child_iff, forall_children_iff]
    simpa [isScope, isLoop, hmiss, hsearch] using fun _ => htest
  | program sourceType body =>
    simp only [Placed, parts, admits_children] at hn
    have hmiss : hit (.program sourceType body) inLoop = false :=
      hh.miss (by simp [Node.kind]) inLoop
    have hsearch : (Node.program sourceType body).Misses hit inLoop ↔ _ :=
      searchAll_eq_false_iff fun node hm => (hn node hm).ne_component rfl
    simp only [parts, forall_children_iff]
    simp [isScope, isLoop, hmiss, hsearch]
  -- declarations and all that is no statement
  | _ => exact misses_step_of_silent hh hn (by first | exact .inl rfl | exact .inr rfl)

/-! ### Whole trees -/

/-- What a search hits nothing from does not lead to anything that it would hit. -/
theorem Reaches.not_hit (hh : Aimed hit) {inner : Node} {deeper : Bool}
    (h : node.Reaches deeper inner) (hg : node.Grammatical) (hm : node.Misses hit inLoop) :
    hit inner (deeper || inLoop) = false := by
  induction h generalizing inLoop with
  | here node => exact ((misses_step hh (everywhere_iff.1 hg).1).1 hm).1
  | @down node inner deeper part hs hp _ ih =>
    obtain ⟨hself, hparts⟩ := everywhere_iff.1 hg
    have hpart := ((misses_step hh hself).1 hm).2 hs part hp
    have hinner := ih (hparts part hp) hpart
    rwa [← Bool.or_assoc, Bool.or_comm deeper] at hinner

/-- **A search hits nothing if there is nothing to hit on any way down**, whichever parts of the
nodes it leads through. The induction is on the levels of the node. -/
theorem misses_of_reaches (hh : Aimed hit) (n : Nat) : ∀ (node : Node) (inLoop : Bool),
    node.Levels n → node.Grammatical →
    (∀ deeper inner, node.Reaches deeper inner → hit inner (deeper || inLoop) = false) →
    node.Misses hit inLoop := by
  induction n with
  | zero =>
    intro node inLoop hn
    have := node.one_le_depth_form
    rw [Levels] at hn
    omega
  | succ n ih =>
    intro node inLoop hn hg h
    obtain ⟨hself, hparts⟩ := everywhere_iff.1 hg
    refine (misses_step hh hself).2 ⟨h false node (.here node), fun hs part hp => ?_⟩
    refine ih part.node _ (levels_parts hn part hp) (hparts part hp) fun deeper inner hinner => ?_
    have hdown := h _ inner (.down hs hp hinner)
    rwa [Bool.or_comm node.isLoop, Bool.or_assoc] at hdown

/-- **A search hits something if there is a way down to it**, and only then. -/
theorem seek_iff_reaches (hh : Aimed hit) (hg : node.Grammatical) :
    node.seek hit inLoop = true ↔
      ∃ deeper inner, node.Reaches deeper inner ∧ hit inner (deeper || inLoop) = true := by
  constructor
  · intro h
    by_contra hnone
    simp only [not_exists, not_and, Bool.not_eq_true] at hnone
    have hmiss : node.seek hit inLoop = false :=
      misses_of_reaches hh node.form.depth node inLoop (Nat.le_refl _) hg hnone
    rw [h] at hmiss
    cases hmiss
  · rintro ⟨deeper, inner, hreach, hhit⟩
    cases hseek : node.seek hit inLoop with
    | true => rfl
    | false =>
      have hmiss := hreach.not_hit hh hg hseek
      rw [hhit] at hmiss
      cases hmiss

end Node

end Misses

/-! ## The two searches -/

namespace Node

theorem isContinueOutwards_iff {node : Node} {inLoop : Bool} :
    node.isContinueOutwards inLoop = true ↔
      ∃ label, node = .continueStatement label ∧ (label.isSome ∨ inLoop = false) := by
  cases node <;> simp [isContinueOutwards, or_comm]

theorem isReturnOfValue_iff {node : Node} :
    node.isReturnOfValue = true ↔ ∃ argument, node = .returnStatement (some argument) := by
  unfold isReturnOfValue
  split <;> simp_all

theorem aimed_isContinueOutwards : Aimed isContinueOutwards := by
  intro node inLoop h
  obtain ⟨label, rfl, -⟩ := isContinueOutwards_iff.1 h
  simp [Node.kind]

theorem aimed_isReturnOfValue : Aimed fun node _ => node.isReturnOfValue := by
  intro node inLoop h
  obtain ⟨argument, rfl⟩ := isReturnOfValue_iff.1 h
  simp [Node.kind]

/-- **The search for jumps is exact** on grammatical trees, whatever statement it begins at. The
statement contains a `continue` for the loop around it if there is one on some way down, with a
label or without a loop above it. A body returns a value if there is such a `return` on some way
down from one of its statements. -/
theorem search_exact :
    (∀ node : Node, node.kind.role ≠ .component → node.Grammatical →
      (node.containsContinue = true ↔ ∃ inLoop label,
        node.Reaches inLoop (.continueStatement label) ∧ (label.isSome ∨ inLoop = false))) ∧
    (∀ body : List Node, (∀ node ∈ body, node.kind.role ≠ .component ∧ node.Grammatical) →
      (returnsValue body = true ↔ ∃ node ∈ body, ∃ inLoop argument,
        node.Reaches inLoop (.returnStatement (some argument)))) := by
  constructor
  · intro node hrole hg
    rw [containsContinue, ← seek_eq_search hrole,
      seek_iff_reaches aimed_isContinueOutwards hg]
    simp only [isContinueOutwards_iff, Bool.or_false]
    constructor
    · rintro ⟨inLoop, inner, hreach, label, rfl, hjump⟩
      exact ⟨inLoop, label, hreach, hjump⟩
    · rintro ⟨inLoop, label, hreach, hjump⟩
      exact ⟨inLoop, _, hreach, label, rfl, hjump⟩
  · intro body hbody
    have hsearch : returnsValue body = true ↔
        ∃ node ∈ body, node.seek (fun node _ => node.isReturnOfValue) false = true := by
      rw [returnsValue, ← Bool.not_eq_false,
        searchAll_eq_false_iff fun node hm => (hbody node hm).1]
      simp [Misses]
    rw [hsearch]
    refine exists_congr fun node => and_congr_right fun hm => ?_
    rw [seek_iff_reaches aimed_isReturnOfValue (hbody node hm).2]
    constructor
    · rintro ⟨inLoop, inner, hreach, hhit⟩
      obtain ⟨argument, rfl⟩ := isReturnOfValue_iff.1 hhit
      exact ⟨inLoop, argument, hreach⟩
    · rintro ⟨inLoop, argument, hreach⟩
      exact ⟨inLoop, _, hreach, rfl⟩

/-- A loop that skips to the next iteration of another one around it, and a function with a value.
-/
def outwards : Node :=
  .blockStatement
    [.whileStatement .thisExpression (.continueStatement (some ⟨"outer"⟩)),
      .functionDeclaration
        ⟨some ⟨"f"⟩, [], [.returnStatement (some .thisExpression)], false, false, false⟩]

/-- A tree is grammatical if its parts are, and stand in slots for them. -/
theorem Grammatical.of_parts {node : Node} (h : ∀ part ∈ node.parts,
    node.kind.Admits part.key part.node.kind ∧ part.node.Grammatical) : node.Grammatical :=
  everywhere_iff.2 ⟨fun part hp => (h part hp).1, fun part hp => (h part hp).2⟩

theorem grammatical_outwards : outwards.Grammatical := by
  have hname (id : Identifier) : (Node.identifier id).Grammatical :=
    .of_parts (List.forall_mem_nil _)
  have hthis : Node.thisExpression.Grammatical := .of_parts (List.forall_mem_nil _)
  have hcontinue : (Node.continueStatement (some ⟨"outer"⟩)).Grammatical :=
    .of_parts (List.forall_mem_singleton.2 ⟨trivial, hname _⟩)
  have hreturn : (Node.returnStatement (some .thisExpression)).Grammatical :=
    .of_parts (List.forall_mem_singleton.2 ⟨trivial, hthis⟩)
  have hblock : (Node.blockStatement [.returnStatement (some .thisExpression)]).Grammatical :=
    .of_parts (List.forall_mem_singleton.2 ⟨rfl, hreturn⟩)
  refine .of_parts (List.forall_mem_cons.2 ⟨⟨rfl, ?_⟩, List.forall_mem_singleton.2 ⟨rfl, ?_⟩⟩)
  · exact .of_parts (List.forall_mem_cons.2 ⟨⟨trivial, hthis⟩,
      List.forall_mem_singleton.2 ⟨rfl, hcontinue⟩⟩)
  · exact .of_parts (List.forall_mem_cons.2 ⟨⟨trivial, hname _⟩,
      List.forall_mem_singleton.2 ⟨rfl, hblock⟩⟩)

/-- The label makes it count, and the value belongs to the function. -/
theorem search_exact_outwards :
    (outwards.containsContinue = true ∧ ∃ inLoop label,
      outwards.Reaches inLoop (.continueStatement label) ∧ (label.isSome ∨ inLoop = false)) ∧
    (returnsValue [outwards] = false ∧ ¬ ∃ node ∈ [outwards], ∃ inLoop argument,
      node.Reaches inLoop (.returnStatement (some argument))) := by
  have hrole : outwards.kind.role ≠ .component := by decide
  have hcontinue : outwards.containsContinue = true := by decide
  have hreturn : returnsValue [outwards] = false := by decide
  have hbody : ∀ node ∈ [outwards], node.kind.role ≠ .component ∧ node.Grammatical := by
    intro node hm
    rw [List.mem_singleton.1 hm]
    exact ⟨hrole, grammatical_outwards⟩
  refine ⟨⟨hcontinue, (search_exact.1 _ hrole grammatical_outwards).1 hcontinue⟩, hreturn, ?_⟩
  rw [← search_exact.2 _ hbody, hreturn]
  decide

end Node

end SwiftScribe
