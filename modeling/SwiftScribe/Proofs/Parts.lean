import SwiftScribe.Json.Path
import SwiftScribe.Node.Basic

/-!
# The parts of a node

Every node that stands directly inside another one, with the keys and indices that lead to it in a
syntax tree. A part is either a node of any kind, which its `type` entry tells, or one whose kind is
fixed by its place: the body of a function is a block, a member of a class is a method.

* `Node.parts`: **the table of parts.**
* `Node.Inside`: what stands inside a node, at any depth.
* `Node.contains_iff`: what occurs in a node is the node itself or occurs in one of its parts.
-/

namespace SwiftScribe

/-- How the kind of a part is known. -/
inductive Access where
  /-- By its `type` entry: a node of any kind may stand there. -/
  | byType
  /-- By its place. -/
  | byPlace
deriving DecidableEq

/-- **A node directly inside another one**, with the path that leads there. -/
structure NodePart where
  path : Json.Path
  access : Access
  node : Node

namespace NodePart

/-- The part under a key, if there is one. -/
def under (access : Access) (key : String) (node? : Option Node) : List NodePart :=
  node?.toList.map fun node => ⟨[.name key], access, node⟩

/-- The parts in an array under a key. A hole is no part. -/
def among (access : Access) (key : String) (items : List (Option Node)) : List NodePart :=
  items.zipIdx.filterMap fun (item, index) =>
    item.map fun node => ⟨[.name key, .index index], access, node⟩

/-- A node of any kind. -/
def child (key : String) (node? : Option Node) : List NodePart := under .byType key node?

/-- Nodes of any kind. -/
def children (key : String) (nodes : List Node) : List NodePart := among .byType key (nodes.map some)

/-- A node whose kind is fixed. -/
def held (key : String) (node? : Option Node) : List NodePart := under .byPlace key node?

/-- Nodes of one fixed kind. -/
def heldEach (key : String) (nodes : List Node) : List NodePart := among .byPlace key (nodes.map some)

theorem mem_under_iff {access : Access} {key : String} {node? : Option Node} {part : NodePart} :
    part ∈ under access key node? ↔ ∃ node, node? = some node ∧ part = ⟨[.name key], access, node⟩ := by
  cases node? <;> simp [under]

theorem mem_among_iff {access : Access} {key : String} {items : List (Option Node)} {part : NodePart} :
    part ∈ among access key items ↔
      ∃ index node, items[index]? = some (some node) ∧
        part = ⟨[.name key, .index index], access, node⟩ := by
  simp only [among, List.mem_filterMap, Option.map_eq_some_iff, Prod.exists,
    List.mem_zipIdx_iff_getElem?]
  constructor
  · rintro ⟨_, index, hi, node, rfl, rfl⟩
    exact ⟨index, node, hi, rfl⟩
  · rintro ⟨index, node, hi, rfl⟩
    exact ⟨_, index, hi, node, rfl, rfl⟩

section Forall

variable {Q : Node → Prop} {key : String}

@[simp] theorem forall_among_iff {access : Access} {items : List (Option Node)} :
    (∀ part ∈ among access key items, Q part.node) ↔ ∀ item ∈ items, ∀ node ∈ item, Q node := by
  constructor
  · intro h item hitem node hnode
    cases hnode
    obtain ⟨index, hi⟩ := List.mem_iff_getElem?.1 hitem
    exact h _ (mem_among_iff.2 ⟨index, node, hi, rfl⟩)
  · intro h part hp
    obtain ⟨index, node, hi, rfl⟩ := mem_among_iff.1 hp
    exact h _ (List.mem_of_getElem? hi) node rfl

theorem forall_under_iff {access : Access} {node? : Option Node} :
    (∀ part ∈ under access key node?, Q part.node) ↔ ∀ node ∈ node?, Q node := by
  cases node? <;> simp [under]

@[simp] theorem forall_child_iff {node? : Option Node} :
    (∀ part ∈ child key node?, Q part.node) ↔ ∀ node ∈ node?, Q node := forall_under_iff

@[simp] theorem forall_held_iff {node? : Option Node} :
    (∀ part ∈ held key node?, Q part.node) ↔ ∀ node ∈ node?, Q node := forall_under_iff

@[simp] theorem forall_children_iff {nodes : List Node} :
    (∀ part ∈ children key nodes, Q part.node) ↔ ∀ node ∈ nodes, Q node := by
  simp [children]

@[simp] theorem forall_heldEach_iff {nodes : List Node} :
    (∀ part ∈ heldEach key nodes, Q part.node) ↔ ∀ node ∈ nodes, Q node := by
  simp [heldEach]

end Forall

end NodePart

open NodePart

def Func.parts (function : Func) : List NodePart :=
  held "id" (function.id.map .identifier) ++ children "params" function.params
    ++ held "body" (some (.blockStatement function.body))

def Class.parts (definition : Class) : List NodePart :=
  held "id" (definition.id.map .identifier) ++ child "superClass" definition.superClass
    ++ held "body" (some (.classBody definition.members))

/-- **The parts of a node.** -/
def Node.parts : Node → List NodePart
  | .arrayExpression elements | .arrayPattern elements => among .byType "elements" elements
  | .arrowFunctionExpression id params body .. =>
    held "id" (id.map .identifier) ++ children "params" params ++ child "body" body
  | .assignmentExpression _ left right | .assignmentPattern left right
  | .binaryExpression _ left right | .logicalExpression _ left right =>
    child "left" left ++ child "right" right
  | .awaitExpression argument | .restElement argument | .spreadElement argument
  | .throwStatement argument | .unaryExpression _ argument _ | .updateExpression _ argument _ =>
    child "argument" argument
  | .returnStatement argument | .yieldExpression argument _ => child "argument" argument
  | .blockStatement body | .program _ body => children "body" body
  | .breakStatement label | .continueStatement label => held "label" (label.map .identifier)
  | .callExpression callee arguments | .newExpression callee arguments =>
    child "callee" callee ++ children "arguments" arguments
  | .catchClause ⟨param, body⟩ => child "param" param ++ held "body" (some (.blockStatement body))
  | .classBody members => heldEach "body" (members.map .methodDefinition)
  | .classDeclaration definition | .classExpression definition => definition.parts
  | .conditionalExpression test consequent alternate =>
    child "test" test ++ child "consequent" consequent ++ child "alternate" alternate
  | .doWhileStatement body test => child "body" body ++ child "test" test
  | .exportAllDeclaration source => held "source" (some (.literal source))
  | .exportDefaultDeclaration declaration => child "declaration" declaration
  | .exportNamedDeclaration declaration specifiers source =>
    child "declaration" declaration ++ heldEach "specifiers" (specifiers.map .exportSpecifier)
      ++ held "source" (source.map .literal)
  | .exportSpecifier ⟨exported, inner⟩ =>
    held "exported" (some (.identifier exported)) ++ held "local" (some (.identifier inner))
  | .expressionStatement expression _ => child "expression" expression
  | .forInStatement left right body _ | .forOfStatement left right body =>
    child "left" left ++ child "right" right ++ child "body" body
  | .forStatement init test update body =>
    child "init" init ++ child "test" test ++ child "update" update ++ child "body" body
  | .functionDeclaration function | .functionExpression function => function.parts
  | .ifStatement test consequent alternate =>
    child "test" test ++ child "consequent" consequent ++ child "alternate" alternate
  | .importSpecifier inner imported =>
    held "local" (some (.identifier inner)) ++ held "imported" (imported.map .identifier)
  | .labeledStatement label body => held "label" (some (.identifier label)) ++ child "body" body
  | .memberExpression _ object name => child "object" object ++ child "property" name
  | .metaProperty base name =>
    held "meta" (some (.identifier base)) ++ held "property" (some (.identifier name))
  | .methodDefinition method =>
    child "key" method.key ++ held "value" (method.value.map .functionExpression)
  | .objectExpression properties | .objectPattern properties => children "properties" properties
  | .property key _ value .. => child "key" key ++ child "value" value
  | .sequenceExpression expressions => children "expressions" expressions
  | .switchCase ⟨test, consequent⟩ => child "test" test ++ children "consequent" consequent
  | .switchStatement discriminant cases =>
    child "discriminant" discriminant ++ heldEach "cases" (cases.map .switchCase)
  | .taggedTemplateExpression tag quasi =>
    child "tag" tag ++ held "quasi" (some (.templateLiteral quasi))
  | .templateLiteral ⟨quasis, expressions⟩ =>
    heldEach "quasis" (quasis.map .templateElement) ++ children "expressions" expressions
  | .tryStatement block handler finalizer =>
    held "block" (some (.blockStatement block)) ++ held "handler" (handler.map .catchClause)
      ++ held "finalizer" (finalizer.map .blockStatement)
  | .variableDeclaration declarations _ =>
    heldEach "declarations" (declarations.map .variableDeclarator)
  | .variableDeclarator ⟨id, init⟩ => child "id" id ++ child "init" init
  | .whileStatement test body => child "test" test ++ child "body" body
  | .withStatement object body => child "object" object ++ child "body" body
  | .debuggerStatement | .emptyStatement | .identifier _ | .importCallee | .literal _
  | .superReference | .templateElement _ | .thisExpression => []

/-- **What stands inside a node**, at any depth: the path to it, how its kind is known, and the node.
A node stands inside itself, as a node of any kind. -/
inductive Node.Inside (root : Node) : Json.Path → Access → Node → Prop
  | root : Inside root [] .byType root
  | part {path : Json.Path} {access : Access} {node : Node} {part : NodePart}
    (h : Inside root path access node) (hp : part ∈ node.parts) :
    Inside root (path ++ part.path) part.access part.node

namespace Node

/-- A node occurs in another one, at any depth. -/
def Contains (root inner : Node) : Prop := ∃ path access, root.Inside path access inner

theorem Contains.refl (root : Node) : root.Contains root := ⟨[], .byType, .root⟩

theorem Contains.part {root node : Node} (h : root.Contains node) {part : NodePart}
    (hp : part ∈ node.parts) : root.Contains part.node := by
  obtain ⟨path, access, h⟩ := h
  exact ⟨_, _, h.part hp⟩

theorem Contains.of_part {root inner : Node} {part : NodePart} (hp : part ∈ root.parts)
    (h : part.node.Contains inner) : root.Contains inner := by
  obtain ⟨path, access, h⟩ := h
  induction h with
  | root => exact (Contains.refl root).part hp
  | part _ hpart ih => exact ih.part hpart

/-- **What occurs in a node** is the node itself or occurs in one of its parts. -/
theorem contains_iff {root inner : Node} :
    root.Contains inner ↔ inner = root ∨ ∃ part ∈ root.parts, part.node.Contains inner := by
  constructor
  · rintro ⟨path, access, h⟩
    induction h with
    | root => exact .inl rfl
    | @part _ _ _ part _ hp ih =>
      rcases ih with rfl | ⟨first, hfirst, hinner⟩
      · exact .inr ⟨part, hp, .refl _⟩
      · exact .inr ⟨first, hfirst, hinner.part hp⟩
  · rintro (rfl | ⟨part, hp, h⟩)
    · exact .refl _
    · exact .of_part hp h

/-- Something holds of every node that occurs in a node. -/
def Everywhere (Q : Node → Prop) (root : Node) : Prop := ∀ inner, root.Contains inner → Q inner

theorem everywhere_iff {Q : Node → Prop} {root : Node} :
    root.Everywhere Q ↔ Q root ∧ ∀ part ∈ root.parts, part.node.Everywhere Q := by
  constructor
  · exact fun h => ⟨h root (.refl root), fun part hp inner hi => h inner (.of_part hp hi)⟩
  · rintro ⟨hroot, hparts⟩ inner hinner
    rcases contains_iff.1 hinner with rfl | ⟨part, hp, hi⟩
    · exact hroot
    · exact hparts part hp inner hi

end Node

end SwiftScribe
