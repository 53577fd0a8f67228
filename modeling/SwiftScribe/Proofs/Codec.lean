import SwiftScribe.Proofs.Sameness
import SwiftScribe.Proofs.DebugText
import SwiftScribe.Proofs.Reading

/-!
# Encoding nodes

A node is written as the object that the schema of its kind describes. Decoding gives the node back,
and whatever a value is decoded to, its `type` entries are the names of the kinds.

* `Node.encode`: **the object that a node is written as.**
* `Schema.reads_encode`: it is read back by the schema of its kind.
* `Node.decode_encode`: decoding loses and confuses nothing.
-/

namespace SwiftScribe

/-! ## Payloads -/

namespace Scalar

mutual
/-- Integers are in the signed 64-bit range. -/
def Fits : Scalar → Prop
  | .int value => -0x8000000000000000 ≤ value ∧ value < 0x8000000000000000
  | .arr items => FitsItems items
  | .map entries => FitsEntries entries
  | _ => True

/-- The integers of every item are in range. -/
def FitsItems : List Scalar → Prop
  | [] => True
  | item :: rest => item.Fits ∧ FitsItems rest

/-- The integers of every entry are in range. -/
def FitsEntries : List (String × Scalar) → Prop
  | [] => True
  | (_, value) :: rest => value.Fits ∧ FitsEntries rest
end

mutual
/-- **A payload is read back.** -/
theorem ofJson_toJson : (value : Scalar) → value.Fits → ofJson value.toJson = value
  | .null, _ => rfl
  | .bool _, _ => rfl
  | .int value, h => by
    rw [Fits] at h
    simp [toJson, ofJson, ofInt, h.2]
  | .double _, _ => rfl
  | .str _, _ => rfl
  | .arr items, h => by
    rw [Fits] at h
    rw [toJson, ofJson, ofItems_toItems items h]
  | .map entries, h => by
    rw [Fits] at h
    rw [toJson, ofJson, ofEntries_toEntries entries h]

theorem ofItems_toItems : (items : List Scalar) → FitsItems items → ofItems (toItems items) = items
  | [], _ => rfl
  | item :: rest, h => by
    rw [FitsItems] at h
    rw [toItems, ofItems, ofJson_toJson item h.1, ofItems_toItems rest h.2]

theorem ofEntries_toEntries : (entries : List (String × Scalar)) → FitsEntries entries →
    ofEntries (toEntries entries) = entries
  | [], _ => rfl
  | (key, value) :: rest, h => by
    rw [FitsEntries] at h
    rw [toEntries, ofEntries, ofJson_toJson value h.1, ofEntries_toEntries rest h.2]
end

end Scalar

/-! ## Forms -/

namespace Form

/-- The entry that names the kind of a record, if the record is a node. -/
def typeEntry (name : String) : Json.Entries :=
  if (Kind.ofName? name).isSome then [("type", .str name)] else []

mutual
/-- **A form as a JSON value.** A record is an object with an entry for each field. What is absent
becomes `null`, a word its spelling. -/
def toJson : Form → Json
  | .record name fields => .obj (typeEntry name ++ toEntries fields)
  | .text value => .str value
  | .flag value => .bool value
  | .word spelling _ => .str spelling
  | .scalar value => value.toJson
  | .absent => .null
  | .present value => toJson value
  | .list items => .arr (toItems items)

/-- Every field as an entry. -/
def toEntries : List (String × Form) → Json.Entries
  | [] => []
  | (key, value) :: rest => (key, toJson value) :: toEntries rest

/-- Every item as a JSON value. -/
def toItems : List Form → List Json
  | [] => []
  | item :: rest => toJson item :: toItems rest
end

theorem toItems_map {α : Type} (form : α → Form) (items : List α) :
    toItems (items.map form) = items.map fun item => (form item).toJson := by
  induction items with
  | nil => rfl
  | cons item rest ih => rw [List.map_cons, toItems, ih, List.map_cons]

theorem get?_toEntries (fields : List (String × Form)) (key : String) :
    (toEntries fields).get? key = (fields.lookup key).map toJson := by
  induction fields with
  | nil => rfl
  | cons head rest ih =>
    obtain ⟨name, value⟩ := head
    rw [toEntries, List.lookup_cons, Json.Entries.get?_cons, ih]
    by_cases hk : key = name
    · simp [hk]
    · have : (key == name) = false := beq_false_of_ne hk
      simp [hk, this]

theorem keys_toEntries (fields : List (String × Form)) :
    (toEntries fields).map Prod.fst = fields.map Prod.fst := by
  induction fields with
  | nil => rfl
  | cons head rest ih => rw [toEntries, List.map_cons, List.map_cons, ih]

/-- The `type` entry hides no field. -/
theorem get?_typeEntry_append {key : String} (hkey : key ≠ "type") (name : String)
    (entries : Json.Entries) :
    Json.Entries.get? (typeEntry name ++ entries) key = entries.get? key := by
  unfold typeEntry
  split
  · rw [List.singleton_append, Json.Entries.get?_cons, if_neg hkey]
  · rfl

/-- The integers of a payload are in range. -/
def Fits : Form → Prop
  | .scalar value => value.Fits
  | _ => True

@[simp] theorem fits_record {name : String} {fields : List (String × Form)} :
    Fits (.record name fields) := trivial

@[simp] theorem fits_text {value : String} : Fits (.text value) := trivial

@[simp] theorem fits_flag {value : Bool} : Fits (.flag value) := trivial

@[simp] theorem fits_ofWord {α : Type} [Word α] {word : α} : Fits (.ofWord word) := trivial

@[simp] theorem fits_scalar_iff {value : Scalar} : Fits (.scalar value) ↔ value.Fits := Iff.rfl

end Form

/-- **The object that a node is written as:** its `type`, and an entry for each field. -/
def Node.encode (node : Node) : Json := node.form.toJson

/-- The integers in the literals of a node are in the signed 64-bit range. -/
def Node.Fits (node : Node) : Prop := node.form.Every Form.Fits

/-- A value is a node that was written. -/
def Encodes (value : Json) (node : Node) : Prop := value = node.encode ∧ node.Fits

/-- A closed set of words whose spellings differ. -/
class LawfulWord (α : Type) [Word α] : Prop where
  ofSpelling?_spelling : ∀ word : α, Word.ofSpelling? (Word.spelling word) = some word

instance : LawfulWord VariableKind := ⟨fun kind => by cases kind <;> rfl⟩

instance : LawfulWord PropertyKind := ⟨fun kind => by cases kind <;> rfl⟩

instance : LawfulWord MethodKind := ⟨fun kind => by cases kind <;> rfl⟩

instance : LawfulWord UpdateOperator := ⟨fun operator => by cases operator <;> rfl⟩

namespace Form

/-! ### Fields that are read back -/

variable {α : Type} {schema : Schema α} {name key : String} {fields : List (String × Form)}

theorem everyField_of_lookup {check : Form → Prop} {form : Form} (h : EveryField check fields)
    (hl : fields.lookup key = some form) : form.Every check := by
  induction fields with
  | nil => cases hl
  | cons head rest ih =>
    obtain ⟨first, value⟩ := head
    rw [everyField_cons_iff] at h
    rw [List.lookup_cons] at hl
    split at hl
    · cases hl
      exact h.1
    · exact ih h.2 hl

/-- A field is read back from its entry. -/
theorem reads_entry {form : Form} {made : α} (hfits : EveryField Fits fields) (hkey : key ≠ "type")
    (hl : fields.lookup key = some form)
    (h : form.Every Fits → schema.Reads Encodes form.toJson made) :
    ReadsEntry (schema.Reads Encodes) schema.absent? key (Form.record name fields).toJson made := by
  refine ⟨_, rfl, ?_⟩
  rw [get?_typeEntry_append hkey, get?_toEntries, hl]
  exact h (everyField_of_lookup hfits hl)

theorem reads_option {form : α → Form} (hn : ∀ a, (form a).toJson.kind ≠ .null)
    (hr : ∀ a, (form a).Every Fits → schema.Reads Encodes (form a).toJson a) {made : Option α}
    (h : (Form.option form made).Every Fits) :
    schema.optional.Reads Encodes (Form.option form made).toJson made := by
  rw [every_option_iff] at h
  cases made with
  | none => exact .inl ⟨rfl, rfl⟩
  | some a => exact .inr ⟨hn a, a, hr a (h a rfl), rfl⟩

theorem reads_list {form : α → Form}
    (hr : ∀ a, (form a).Every Fits → schema.Reads Encodes (form a).toJson a) {made : List α}
    (h : (Form.list (made.map form)).Every Fits) :
    schema.list.Reads Encodes (Form.list (made.map form)).toJson made := by
  rw [every_list_iff, everyItem_map_iff] at h
  refine ⟨_, rfl, ?_⟩
  rw [toItems_map, List.forall₂_map_left_iff, List.forall₂_same]
  exact fun a hm => hr a (h a hm)

theorem reads_text {made : String} (_ : (Form.text made).Every Fits) :
    Schema.text.Reads Encodes (Form.text made).toJson made := rfl

theorem reads_textOption {made : Option String} (h : (Form.option .text made).Every Fits) :
    Schema.text.optional.Reads Encodes (Form.option .text made).toJson made :=
  reads_option (fun _ => by nofun) (fun _ => reads_text) h

theorem reads_textOr {made default : String} (_ : (Form.text made).Every Fits) :
    (Schema.text.orElse default).Reads Encodes (Form.text made).toJson made := .inr ⟨nofun, rfl⟩

theorem reads_flag {made : Bool} (_ : (Form.flag made).Every Fits) :
    Schema.flag.Reads Encodes (Form.flag made).toJson made := rfl

theorem reads_flagOr {made default : Bool} (_ : (Form.flag made).Every Fits) :
    (Schema.flag.orElse default).Reads Encodes (Form.flag made).toJson made := .inr ⟨nofun, rfl⟩

theorem reads_scalar {made : Scalar} (h : (Form.scalar made).Every Fits) :
    Schema.scalar.Reads Encodes (Form.scalar made).toJson made :=
  made.ofJson_toJson h

theorem reads_ofWord [Word α] [LawfulWord α] {made : α} (_ : (Form.ofWord made).Every Fits) :
    (Schema.word : Schema α).Reads Encodes (Form.ofWord made).toJson made :=
  ⟨Word.spelling made, rfl, LawfulWord.ofSpelling?_spelling made⟩

theorem reads_node {made : Node} (h : made.form.Every Fits) :
    Schema.node.Reads Encodes made.form.toJson made :=
  ⟨rfl, h⟩

end Form

theorem Method.form_eq (key : Option Node) (computed : Bool) (value : Option Func) (kind : MethodKind)
    (isStatic : Bool) :
    Method.form ⟨key, computed, value, kind, isStatic⟩ =
      .record "MethodDefinition"
        [("key", formOption key), ("computed", .flag computed),
         ("value", .option (fun function => .record "FunctionExpression" function.formFields) value),
         ("kind", .ofWord kind), ("static", .flag isStatic)] := by
  cases value <;> rfl

theorem Node.form_tryStatement (block : List Node) (handler : Option CatchClause)
    (finalizer : Option (List Node)) :
    (Node.tryStatement block handler finalizer).form =
      .record "TryStatement"
        [("block", .block (formAll block)), ("handler", .option CatchClause.form handler),
         ("finalizer", .option (fun body => .block (formAll body)) finalizer)] := by
  cases handler <;> cases finalizer <;> rfl

/-- The keys of the fields, in order. -/
def Fields.keys : {α : Type} → Fields α → List String
  | _, .make _ => []
  | _, .field before key _ => before.keys ++ [key]

/-- The keys of the object that a schema asks for. -/
def Schema.keys : {α : Type} → Schema α → List String
  | _, .record fields => fields.keys
  | _, .map _ schema => schema.keys
  | _, _ => []

/-- A node is shown as a record with the name of its kind and the keys of its schema. -/
theorem Node.form_eq_record (node : Node) :
    ∃ fields, node.form = .record node.kind.name fields ∧
      fields.map Prod.fst = (Schema.ofKind node.kind).keys := by
  cases node with
  | catchClause clause => cases clause; exact ⟨_, rfl, rfl⟩
  | classDeclaration definition => cases definition; exact ⟨_, rfl, rfl⟩
  | classExpression definition => cases definition; exact ⟨_, rfl, rfl⟩
  | functionDeclaration function => cases function; exact ⟨_, rfl, rfl⟩
  | functionExpression function => cases function; exact ⟨_, rfl, rfl⟩
  | methodDefinition method => cases method; exact ⟨_, Method.form_eq .., rfl⟩
  | switchCase case => cases case; exact ⟨_, rfl, rfl⟩
  | templateLiteral template => cases template; exact ⟨_, rfl, rfl⟩
  | variableDeclarator declarator => cases declarator; exact ⟨_, rfl, rfl⟩
  | tryStatement block handler finalizer => exact ⟨_, Node.form_tryStatement .., rfl⟩
  | _ => exact ⟨_, rfl, rfl⟩

namespace Schema

open Form

theorem ne_null_of_node (node : Node) : node.form.toJson.kind ≠ .null := by
  obtain ⟨fields, h, -⟩ := node.form_eq_record
  rw [h]
  exact nofun

theorem reads_nodes {made : List Node} (h : (Form.list (formAll made)).Every Fits) :
    nodes.Reads Encodes (Form.list (formAll made)).toJson made := by
  rw [formAll_eq_map] at h ⊢
  exact reads_list (fun _ => reads_node) h

theorem reads_nodeOption {made : Option Node} (h : (formOption made).Every Fits) :
    node.optional.Reads Encodes (formOption made).toJson made := by
  rw [formOption_eq] at h ⊢
  exact reads_option ne_null_of_node (fun _ => reads_node) h

theorem reads_holes {made : List (Option Node)} (h : (Form.list (formHoles made)).Every Fits) :
    node.optional.list.Reads Encodes (Form.list (formHoles made)).toJson made := by
  rw [formHoles_eq_map] at h ⊢
  exact reads_list (fun _ => reads_option ne_null_of_node fun _ => reads_node) h

/-! ### Records -/

theorem reads_identifier {made : Identifier} (h : made.form.Every Fits) :
    identifier.Reads Encodes made.form.toJson made := by
  have hf := (every_record_iff.1 h).2
  exact ⟨_, reads_entry hf (by decide) rfl reads_text, rfl⟩

theorem reads_name {made : Option Identifier} (h : (Form.option Identifier.form made).Every Fits) :
    identifier.optional.Reads Encodes (Form.option Identifier.form made).toJson made :=
  reads_option (fun _ => by nofun) (fun _ => reads_identifier) h

theorem reads_regex {made : Regex} (h : made.form.Every Fits) :
    regex.Reads Encodes made.form.toJson made := by
  have hf := (every_record_iff.1 h).2
  exact ⟨_, reads_entry hf (by decide) rfl reads_text,
    _, reads_entry hf (by decide) rfl reads_text, rfl⟩

theorem reads_literal {made : Literal} (h : made.form.Every Fits) :
    literal.Reads Encodes made.form.toJson made := by
  have hf := (every_record_iff.1 h).2
  exact ⟨_, reads_entry hf (by decide) rfl reads_scalar,
    _, reads_entry hf (by decide) rfl reads_text,
    _, reads_entry hf (by decide) rfl (reads_option (fun _ => by nofun) fun _ => reads_regex), rfl⟩

theorem reads_templateText {made : TemplateText} (h : made.form.Every Fits) :
    templateText.Reads Encodes made.form.toJson made := by
  have hf := (every_record_iff.1 h).2
  exact ⟨_, reads_entry hf (by decide) rfl reads_textOption, _,
    reads_entry hf (by decide) rfl reads_text, rfl⟩

theorem reads_templateElement {made : TemplateElement} (h : made.form.Every Fits) :
    templateElement.Reads Encodes made.form.toJson made := by
  have hf := (every_record_iff.1 h).2
  exact ⟨_, reads_entry hf (by decide) rfl reads_templateText, _,
    reads_entry hf (by decide) rfl reads_flagOr, rfl⟩

theorem reads_exportSpecifier {made : ExportSpecifier} (h : made.form.Every Fits) :
    exportSpecifier.Reads Encodes made.form.toJson made := by
  have hf := (every_record_iff.1 h).2
  exact ⟨_, reads_entry hf (by decide) rfl reads_identifier, _,
    reads_entry hf (by decide) rfl reads_identifier, rfl⟩

theorem reads_block {made : List Node} (h : (Form.block (formAll made)).Every Fits) :
    block.Reads Encodes (Form.block (formAll made)).toJson made := by
  have hf := (every_record_iff.1 h).2
  exact ⟨_, reads_entry hf (by decide) rfl reads_nodes, rfl⟩

theorem reads_func {made : Func} {name : String} (h : (Form.record name made.formFields).Every Fits) :
    func.Reads Encodes (Form.record name made.formFields).toJson made := by
  have hf := (every_record_iff.1 h).2
  obtain ⟨id, params, body, generator, isAsync, expression⟩ := made
  exact ⟨_, reads_entry hf (by decide) rfl reads_name, _, reads_entry hf (by decide) rfl reads_nodes, _,
    reads_entry hf (by decide) rfl reads_block, _, reads_entry hf (by decide) rfl reads_flagOr, _,
    reads_entry hf (by decide) rfl reads_flagOr, _, reads_entry hf (by decide) rfl reads_flagOr, rfl⟩

theorem reads_method {made : Method} (h : made.form.Every Fits) :
    method.Reads Encodes made.form.toJson made := by
  obtain ⟨key, computed, value, kind, isStatic⟩ := made
  rw [Method.form_eq] at h ⊢
  have hf := (every_record_iff.1 h).2
  exact ⟨_, reads_entry hf (by decide) rfl reads_nodeOption, _,
    reads_entry hf (by decide) rfl reads_flagOr, _,
    reads_entry hf (by decide) rfl (reads_option (fun _ => by nofun) fun _ => reads_func), _,
    reads_entry hf (by decide) rfl reads_ofWord, _, reads_entry hf (by decide) rfl reads_flagOr, rfl⟩

theorem reads_members {made : List Method}
    (h : (Form.record "ClassBody" [("body", .list (formMembers made))]).Every Fits) :
    members.Reads Encodes (Form.record "ClassBody" [("body", .list (formMembers made))]).toJson
      made := by
  rw [formMembers_eq_map] at h ⊢
  have hf := (every_record_iff.1 h).2
  exact ⟨_, reads_entry hf (by decide) rfl (reads_list fun _ => reads_method), rfl⟩

theorem reads_classDefinition {made : Class} {name : String}
    (h : (Form.record name made.formFields).Every Fits) :
    classDefinition.Reads Encodes (Form.record name made.formFields).toJson made := by
  have hf := (every_record_iff.1 h).2
  obtain ⟨id, superClass, members⟩ := made
  exact ⟨_, reads_entry hf (by decide) rfl reads_name, _,
    reads_entry hf (by decide) rfl reads_nodeOption, _,
    reads_entry hf (by decide) rfl reads_members, rfl⟩

theorem reads_declarator {made : Declarator} (h : made.form.Every Fits) :
    declarator.Reads Encodes made.form.toJson made := by
  obtain ⟨id, init⟩ := made
  have hf := (every_record_iff.1 h).2
  exact ⟨_, reads_entry hf (by decide) rfl reads_node, _,
    reads_entry hf (by decide) rfl reads_nodeOption, rfl⟩

theorem reads_switchCase {made : SwitchCase} (h : made.form.Every Fits) :
    switchCase.Reads Encodes made.form.toJson made := by
  obtain ⟨test, consequent⟩ := made
  have hf := (every_record_iff.1 h).2
  exact ⟨_, reads_entry hf (by decide) rfl reads_nodeOption, _,
    reads_entry hf (by decide) rfl reads_nodes, rfl⟩

theorem reads_catchClause {made : CatchClause} (h : made.form.Every Fits) :
    catchClause.Reads Encodes made.form.toJson made := by
  obtain ⟨param, body⟩ := made
  have hf := (every_record_iff.1 h).2
  exact ⟨_, reads_entry hf (by decide) rfl reads_nodeOption, _,
    reads_entry hf (by decide) rfl reads_block, rfl⟩

theorem reads_template {made : Template} (h : made.form.Every Fits) :
    template.Reads Encodes made.form.toJson made := by
  obtain ⟨quasis, expressions⟩ := made
  have hf := (every_record_iff.1 h).2
  exact ⟨_, reads_entry hf (by decide) rfl (reads_list fun _ => reads_templateElement), _,
    reads_entry hf (by decide) rfl reads_nodes, rfl⟩

/-- **A node that was written is read back** by the schema of its kind, if that holds of the nodes
inside. -/
theorem reads_encode {made : Node} (h : made.Fits) :
    (ofKind made.kind).Reads Encodes made.encode made := by
  unfold Node.Fits at h
  cases made with
  | debuggerStatement | emptyStatement | importCallee | superReference | thisExpression =>
    exact rfl
  | awaitExpression | exportDefaultDeclaration | restElement | spreadElement | throwStatement =>
    have hf := (every_record_iff.1 h).2
    exact ⟨_, reads_entry hf (by decide) rfl reads_node, rfl⟩
  | returnStatement =>
    have hf := (every_record_iff.1 h).2
    exact ⟨_, reads_entry hf (by decide) rfl reads_nodeOption, rfl⟩
  | arrayExpression | arrayPattern =>
    have hf := (every_record_iff.1 h).2
    exact ⟨_, reads_entry hf (by decide) rfl reads_holes, rfl⟩
  | objectExpression | objectPattern | sequenceExpression =>
    have hf := (every_record_iff.1 h).2
    exact ⟨_, reads_entry hf (by decide) rfl reads_nodes, rfl⟩
  | assignmentPattern | doWhileStatement | whileStatement | withStatement =>
    have hf := (every_record_iff.1 h).2
    exact ⟨_, reads_entry hf (by decide) rfl reads_node, _,
      reads_entry hf (by decide) rfl reads_node, rfl⟩
  | callExpression | newExpression =>
    have hf := (every_record_iff.1 h).2
    exact ⟨_, reads_entry hf (by decide) rfl reads_node, _,
      reads_entry hf (by decide) rfl reads_nodes, rfl⟩
  | assignmentExpression | binaryExpression | logicalExpression =>
    have hf := (every_record_iff.1 h).2
    exact ⟨_, reads_entry hf (by decide) rfl reads_text, _,
      reads_entry hf (by decide) rfl reads_node, _, reads_entry hf (by decide) rfl reads_node, rfl⟩
  | memberExpression =>
    have hf := (every_record_iff.1 h).2
    exact ⟨_, reads_entry hf (by decide) rfl reads_flag, _,
      reads_entry hf (by decide) rfl reads_node, _, reads_entry hf (by decide) rfl reads_node, rfl⟩
  | conditionalExpression | forOfStatement =>
    have hf := (every_record_iff.1 h).2
    exact ⟨_, reads_entry hf (by decide) rfl reads_node, _,
      reads_entry hf (by decide) rfl reads_node, _, reads_entry hf (by decide) rfl reads_node, rfl⟩
  | ifStatement =>
    have hf := (every_record_iff.1 h).2
    exact ⟨_, reads_entry hf (by decide) rfl reads_node, _,
      reads_entry hf (by decide) rfl reads_node, _, reads_entry hf (by decide) rfl reads_nodeOption,
      rfl⟩
  | forInStatement =>
    have hf := (every_record_iff.1 h).2
    exact ⟨_, reads_entry hf (by decide) rfl reads_node, _,
      reads_entry hf (by decide) rfl reads_node, _, reads_entry hf (by decide) rfl reads_node, _,
      reads_entry hf (by decide) rfl reads_flagOr, rfl⟩
  | forStatement =>
    have hf := (every_record_iff.1 h).2
    exact ⟨_, reads_entry hf (by decide) rfl reads_nodeOption, _,
      reads_entry hf (by decide) rfl reads_nodeOption, _,
      reads_entry hf (by decide) rfl reads_nodeOption, _, reads_entry hf (by decide) rfl reads_node,
      rfl⟩
  | unaryExpression =>
    have hf := (every_record_iff.1 h).2
    exact ⟨_, reads_entry hf (by decide) rfl reads_text, _,
      reads_entry hf (by decide) rfl reads_node, _, reads_entry hf (by decide) rfl reads_flagOr,
      rfl⟩
  | updateExpression =>
    have hf := (every_record_iff.1 h).2
    exact ⟨_, reads_entry hf (by decide) rfl reads_ofWord, _,
      reads_entry hf (by decide) rfl reads_node, _, reads_entry hf (by decide) rfl reads_flag, rfl⟩
  | expressionStatement =>
    have hf := (every_record_iff.1 h).2
    exact ⟨_, reads_entry hf (by decide) rfl reads_node, _,
      reads_entry hf (by decide) rfl reads_textOption, rfl⟩
  | yieldExpression =>
    have hf := (every_record_iff.1 h).2
    exact ⟨_, reads_entry hf (by decide) rfl reads_nodeOption, _,
      reads_entry hf (by decide) rfl reads_flagOr, rfl⟩
  | program =>
    have hf := (every_record_iff.1 h).2
    exact ⟨_, reads_entry hf (by decide) rfl reads_textOr, _,
      reads_entry hf (by decide) rfl reads_nodes, rfl⟩
  | property =>
    have hf := (every_record_iff.1 h).2
    exact ⟨_, reads_entry hf (by decide) rfl reads_node, _,
      reads_entry hf (by decide) rfl reads_flag, _, reads_entry hf (by decide) rfl reads_nodeOption,
      _, reads_entry hf (by decide) rfl reads_ofWord, _,
      reads_entry hf (by decide) rfl reads_flagOr, _, reads_entry hf (by decide) rfl reads_flagOr,
      rfl⟩
  | arrowFunctionExpression =>
    have hf := (every_record_iff.1 h).2
    exact ⟨_, reads_entry hf (by decide) rfl reads_name, _,
      reads_entry hf (by decide) rfl reads_nodes, _, reads_entry hf (by decide) rfl reads_node, _,
      reads_entry hf (by decide) rfl reads_flagOr, _, reads_entry hf (by decide) rfl reads_flagOr,
      _, reads_entry hf (by decide) rfl reads_flagOr, rfl⟩
  | breakStatement | continueStatement =>
    have hf := (every_record_iff.1 h).2
    exact ⟨_, reads_entry hf (by decide) rfl reads_name, rfl⟩
  | labeledStatement =>
    have hf := (every_record_iff.1 h).2
    exact ⟨_, reads_entry hf (by decide) rfl reads_identifier, _,
      reads_entry hf (by decide) rfl reads_node, rfl⟩
  | importSpecifier =>
    have hf := (every_record_iff.1 h).2
    exact ⟨_, reads_entry hf (by decide) rfl reads_identifier, _,
      reads_entry hf (by decide) rfl reads_name, rfl⟩
  | metaProperty =>
    have hf := (every_record_iff.1 h).2
    exact ⟨_, reads_entry hf (by decide) rfl reads_identifier, _,
      reads_entry hf (by decide) rfl reads_identifier, rfl⟩
  | exportAllDeclaration =>
    have hf := (every_record_iff.1 h).2
    exact ⟨_, reads_entry hf (by decide) rfl reads_literal, rfl⟩
  | exportNamedDeclaration =>
    have hf := (every_record_iff.1 h).2
    exact ⟨_, reads_entry hf (by decide) rfl reads_nodeOption, _,
      reads_entry hf (by decide) rfl (reads_list fun _ => reads_exportSpecifier), _,
      reads_entry hf (by decide) rfl (reads_option (fun _ => by nofun) fun _ => reads_literal), rfl⟩
  | variableDeclaration declarations kind =>
    rw [Node.form, formDeclarators_eq_map] at h
    rw [Node.encode, Node.form, formDeclarators_eq_map]
    have hf := (every_record_iff.1 h).2
    exact ⟨_, reads_entry hf (by decide) rfl (reads_list fun _ => reads_declarator), _,
      reads_entry hf (by decide) rfl reads_ofWord, rfl⟩
  | switchStatement discriminant cases =>
    rw [Node.form, formCases_eq_map] at h
    rw [Node.encode, Node.form, formCases_eq_map]
    have hf := (every_record_iff.1 h).2
    exact ⟨_, reads_entry hf (by decide) rfl reads_node, _,
      reads_entry hf (by decide) rfl (reads_list fun _ => reads_switchCase), rfl⟩
  | taggedTemplateExpression =>
    have hf := (every_record_iff.1 h).2
    exact ⟨_, reads_entry hf (by decide) rfl reads_node, _,
      reads_entry hf (by decide) rfl reads_template, rfl⟩
  | functionDeclaration | functionExpression =>
    exact ⟨_, reads_func h, rfl⟩
  | classDeclaration | classExpression =>
    exact ⟨_, reads_classDefinition h, rfl⟩
  | identifier => exact ⟨_, reads_identifier h, rfl⟩
  | literal => exact ⟨_, reads_literal h, rfl⟩
  | exportSpecifier => exact ⟨_, reads_exportSpecifier h, rfl⟩
  | blockStatement => exact ⟨_, reads_block h, rfl⟩
  | classBody => exact ⟨_, reads_members h, rfl⟩
  | methodDefinition => exact ⟨_, reads_method h, rfl⟩
  | variableDeclarator => exact ⟨_, reads_declarator h, rfl⟩
  | switchCase => exact ⟨_, reads_switchCase h, rfl⟩
  | catchClause => exact ⟨_, reads_catchClause h, rfl⟩
  | templateElement => exact ⟨_, reads_templateElement h, rfl⟩
  | templateLiteral => exact ⟨_, reads_template h, rfl⟩
  | tryStatement block handler finalizer =>
    rw [Node.form_tryStatement] at h
    rw [Node.encode, Node.form_tryStatement]
    have hf := (every_record_iff.1 h).2
    have hn (clause : CatchClause) : clause.form.toJson.kind ≠ .null :=
      ne_null_of_node (.catchClause clause)
    exact ⟨_, reads_entry hf (by decide) rfl reads_block, _,
      reads_entry hf (by decide) rfl (reads_option hn fun _ => reads_catchClause), _,
      reads_entry hf (by decide) rfl (reads_option (fun _ => by nofun) fun _ => reads_block), rfl⟩

end Schema

/-! ## What was written is decoded -/

namespace Node

/-- A node is written as an object with its `type` and the fields of its schema. -/
theorem encode_eq_obj (node : Node) :
    ∃ entries : Json.Entries, node.encode = .obj entries ∧
      entries.map Prod.fst = "type" :: (Schema.ofKind node.kind).keys ∧
      entries.get? "type" = some (.str node.kind.name) := by
  obtain ⟨fields, h, hkeys⟩ := node.form_eq_record
  have htype : Form.typeEntry node.kind.name = [("type", .str node.kind.name)] := by
    rw [Form.typeEntry, Kind.ofName?_name]
    rfl
  refine ⟨_, by rw [encode, h, Form.toJson], ?_, by rw [htype]; rfl⟩
  rw [htype, List.singleton_append, List.map_cons, Form.keys_toEntries, hkeys]

/-- **A node that was written is decoded.** The induction is on the depth that is left. -/
theorem decodesWithin_encode (depth : Nat) : DecodesWithin Encodes (decodeWithin depth) depth := by
  induction depth with
  | zero =>
    rintro value node path ⟨rfl, -⟩ hd
    obtain ⟨entries, h, -, -⟩ := node.encode_eq_obj
    rw [h, Json.depth] at hd
    omega
  | succ depth ih =>
    rintro value node path ⟨rfl, hfits⟩ hd
    obtain ⟨entries, h, -, htype⟩ := node.encode_eq_obj
    have hfield : Cursor.field ⟨node.encode, path⟩ "type" none Cursor.text = .ok node.kind.name := by
      rw [h, Cursor.field_of_entry htype]
      rfl
    rw [decodeWithin, hfield]
    simp only [bind, Except.bind, Kind.ofName?_name]
    exact (Schema.ofObject_ofKind node.kind).decode_of_reads ih hd (Schema.reads_encode hfits)

/-- **Decoding loses and confuses nothing.** A node is written as an object with its `type` and the
fields of its schema, and decoding gives it back. Whatever a value is decoded to, the `type` entry of
each node of any kind, at its own path, is the name of the kind of that node. -/
theorem decode_encode :
    (∀ node : Node, node.Fits →
      Node.decode node.encode = .ok node ∧
        ∃ entries : Json.Entries, node.encode = .obj entries ∧
          entries.map Prod.fst = "type" :: (Schema.ofKind node.kind).keys ∧
          entries.get? "type" = some (.str node.kind.name)) ∧
      ∀ (value : Json) (node : Node), Node.decode value = .ok node →
        ∀ (path : Json.Path) (inner : Node), node.Inside path .byType inner →
          ∃ entries : Json.Entries, path.resolve value = some (.obj entries) ∧
            entries.get? "type" = some (.str inner.kind.name) := by
  constructor
  · intro node hfits
    refine ⟨?_, node.encode_eq_obj⟩
    exact decodesWithin_encode node.encode.depth node.encode node [] ⟨rfl, hfits⟩ (Nat.le_refl _)
  · intro value node h path inner hinside
    obtain ⟨found, hfound, hreads⟩ := hinside.found ⟨value.depth, [], h⟩
    obtain ⟨⟨entries, rfl, htype⟩, -⟩ := Decoded.reads hreads
    exact ⟨entries, hfound, htype⟩

/-- A constant list. -/
def constantList : Declarator :=
  ⟨.identifier ⟨"xs"⟩, some (.literal ⟨.arr [.int (-1), .null], "[-1, null]", none⟩)⟩

/-- A module that declares it. -/
def listed : Node := .program "module" [.variableDeclaration [constantList] .constant]

theorem decode_encode_listed :
    listed.Fits ∧ Node.decode listed.encode = .ok listed ∧
      ∃ entries : Json.Entries,
        Json.Path.resolve [.name "body", .index 0, .name "declarations", .index 0, .name "init"]
          listed.encode = some (.obj entries) ∧
        entries.get? "type" = some (.str "Literal") := by
  have hfits : listed.Fits := by
    simp [listed, constantList, Node.Fits, Node.form, Declarator.form, Identifier.form, Literal.form,
      Scalar.Fits, Scalar.FitsItems]
  have hdeclaration :
      ⟨[.name "body", .index 0], .byType, .variableDeclaration [constantList] .constant⟩ ∈
        listed.parts := List.mem_cons_self
  have hdeclarator : ⟨[.name "declarations", .index 0], .byPlace, .variableDeclarator constantList⟩ ∈
      (Node.variableDeclaration [constantList] .constant).parts := List.mem_cons_self
  have hinit : ⟨[.name "init"], .byType, .literal ⟨.arr [.int (-1), .null], "[-1, null]", none⟩⟩ ∈
      (Node.variableDeclarator constantList).parts := List.mem_cons_of_mem _ List.mem_cons_self
  have hinside := ((Inside.root.part hdeclaration).part hdeclarator).part hinit
  have hdecode := (decode_encode.1 listed hfits).1
  exact ⟨hfits, hdecode, decode_encode.2 _ _ hdecode _ _ hinside⟩

end Node

end SwiftScribe
