import Mathlib.Data.List.Forall2
import SwiftScribe.Proofs.Culprit
import SwiftScribe.Proofs.Parts

/-!
# Reading by a schema, as a relation

What a value stands for under a schema is said by a relation, of which decoding is the computation.
From it one reads off where in a value the parts of its node stand.

* `Schema.Reads`: **what a value stands for under a schema.**
* `Schema.decode_of_reads`, `Schema.reads_of_decode`: it is what decoding by the schema computes.
* `Schema.found_of_reads`: the parts of a node stand where the table of parts says.
* `Node.Inside.found`: hence everything inside a node stands at its path in the value.
-/

namespace SwiftScribe

/-! ## Reading as a relation -/

/-- What an object says under a key: what its entry stands for, or the default if there is none. -/
def ReadsEntry {α : Type} (reads : Json → α → Prop) (absent? : Option α) (key : String) (object : Json)
    (made : α) : Prop :=
  ∃ entries, object = .obj entries ∧
    match Json.Entries.get? entries key with
    | some value => reads value made
    | none => absent? = some made

mutual
/-- **What a value stands for under a schema**, if `child` says so of the nodes inside. -/
def Schema.Reads (child : Json → Node → Prop) : {α : Type} → Schema α → Json → α → Prop
  | _, .text, value, made => value = .str made
  | _, .flag, value, made => value = .bool made
  | _, .scalar, value, made => Scalar.ofJson value = made
  | _, @Schema.word _ _, value, made =>
    ∃ text, value = .str text ∧ Word.ofSpelling? text = some made
  | _, .node, value, made => child value made
  | _, .record fields, value, made => fields.Reads child value fun other => other = made
  | _, .optional schema, value, made =>
    (value.kind = .null ∧ made = none) ∨
      (value.kind ≠ .null ∧ ∃ inner, schema.Reads child value inner ∧ made = some inner)
  | _, .orElse schema default, value, made =>
    (value.kind = .null ∧ made = default) ∨ (value.kind ≠ .null ∧ schema.Reads child value made)
  | _, .list schema, value, made =>
    ∃ items, value = .arr items ∧ List.Forall₂ (schema.Reads child) items made
  | _, .map f schema, value, made => ∃ inner, schema.Reads child value inner ∧ f inner = made

/-- An object stands for something that passes a test. -/
def Fields.Reads (child : Json → Node → Prop) : {α : Type} → Fields α → Json → (α → Prop) → Prop
  | _, .make value, _, passes => passes value
  | _, .field before key schema, object, passes =>
    before.Reads child object fun f =>
      ∃ made, ReadsEntry (schema.Reads child) schema.absent? key object made ∧ passes (f made)
end

theorem Cursor.field_eq_ok_iff {α : Type} {cursor : Cursor} {key : String} {absent? : Option α}
    {decode : Cursor → Except DecodeError α} {made : α} :
    cursor.field key absent? decode = .ok made ↔
      ReadsEntry (fun value made => decode ⟨value, cursor.path.join (.name key)⟩ = .ok made) absent?
        key cursor.value made := by
  obtain ⟨value, path⟩ := cursor
  cases value with
  | obj entries =>
    simp only [field, ReadsEntry, Json.obj.injEq, exists_eq_left']
    cases Json.Entries.get? entries key with
    | some value => exact Iff.rfl
    | none => cases absent? <;> simp
  | _ => simp [field, ReadsEntry]

theorem ReadsEntry.imp {α : Type} {reads weaker : Json → α → Prop} {absent? : Option α}
    {key : String} {object : Json} {made : α} (h : ReadsEntry reads absent? key object made)
    (hw : ∀ entries value, object = .obj entries → Json.Entries.get? entries key = some value →
      reads value made → weaker value made) : ReadsEntry weaker absent? key object made := by
  obtain ⟨entries, rfl, h⟩ := h
  refine ⟨entries, rfl, ?_⟩
  cases hg : Json.Entries.get? entries key with
  | some value =>
    rw [hg] at h
    exact hw entries value rfl hg h
  | none =>
    rw [hg] at h
    exact h

/-- Items are read one by one. -/
theorem Cursor.itemsFrom_of_forall₂ {α : Type} {path : Json.Path} {reads : Json → α → Prop}
    {decode : Cursor → Except DecodeError α} {items : List Json} {made : List α}
    (h : List.Forall₂ reads items made)
    (hd : ∀ item a path, item ∈ items → reads item a → decode ⟨item, path⟩ = .ok a) (start : Nat) :
    itemsFrom path decode start items = .ok made := by
  induction h generalizing start with
  | nil => rfl
  | cons hhead _ ih =>
    have hrest := ih (fun item a path hm => hd item a path (List.mem_cons_of_mem _ hm)) (start + 1)
    rw [itemsFrom, hd _ _ _ List.mem_cons_self hhead, hrest]
    rfl

theorem Cursor.forall₂_of_itemsFrom {α : Type} {path : Json.Path} {reads : Json → α → Prop}
    {decode : Cursor → Except DecodeError α} {items : List Json} {made : List α} {start : Nat}
    (h : itemsFrom path decode start items = .ok made)
    (hd : ∀ item a path, decode ⟨item, path⟩ = .ok a → reads item a) :
    List.Forall₂ reads items made := by
  induction items generalizing start made with
  | nil => cases h; exact .nil
  | cons item rest ih =>
    rw [itemsFrom] at h
    cases hhead : decode ⟨item, path.join (.index start)⟩ with
    | error e => rw [hhead] at h; cases h
    | ok first =>
      cases hrest : itemsFrom path decode (start + 1) rest with
      | error e => rw [hhead, hrest] at h; cases h
      | ok others =>
        rw [hhead, hrest] at h
        cases h
        exact .cons (hd _ _ _ hhead) (ih hrest)

section Decoding

variable {child : Cursor → Except DecodeError Node} {reads : Json → Node → Prop} {depth : Nat}

/-- Values up to some depth are decoded to the nodes that they stand for. -/
def DecodesWithin (reads : Json → Node → Prop) (child : Cursor → Except DecodeError Node)
    (depth : Nat) : Prop :=
  ∀ (value : Json) (node : Node) (path : Json.Path), reads value node → value.depth ≤ depth →
    child ⟨value, path⟩ = .ok node

mutual
/-- **Decoding by a schema finds what a value stands for.** -/
theorem Schema.decode_of_reads (hchild : DecodesWithin reads child depth) :
    {α : Type} → (schema : Schema α) → {value : Json} → {path : Json.Path} → {made : α} →
      schema.Reads reads value made → value.depth ≤ depth →
      schema.decode child ⟨value, path⟩ = .ok made
  | _, .text, _, _, _, h, _ => by subst h; rfl
  | _, .flag, _, _, _, h, _ => by subst h; rfl
  | _, .scalar, _, _, _, h, _ => by subst h; rfl
  | _, @Schema.word _ _, _, _, _, h, _ => by
    obtain ⟨text, rfl, hword⟩ := h
    simp [Schema.decode, Cursor.word, Cursor.text, Except.bind, hword]
  | _, .node, value, path, made, h, hd => hchild value made path h hd
  | _, .record fields, _, _, _, h, hd => by
    obtain ⟨made, hmade, rfl⟩ := Fields.decode_of_reads hchild fields h (Nat.le_succ_of_le hd)
    exact hmade
  | _, .optional schema, value, path, made, h, hd => by
    rw [Schema.decode]
    rcases h with ⟨hnull, rfl⟩ | ⟨hnull, inner, h, rfl⟩
    · rw [if_pos hnull]
    · rw [if_neg hnull, Schema.decode_of_reads hchild schema h hd]
      rfl
  | _, .orElse schema default, value, path, made, h, hd => by
    rw [Schema.decode]
    rcases h with ⟨hnull, rfl⟩ | ⟨hnull, h⟩
    · rw [if_pos hnull]
    · rw [if_neg hnull, Schema.decode_of_reads hchild schema h hd]
  | _, .list schema, _, _, _, h, hd => by
    obtain ⟨items, rfl, h⟩ := h
    rw [Json.depth] at hd
    refine Cursor.itemsFrom_of_forall₂ h (fun item a path hm hitem => ?_) 0
    have := Json.depth_of_mem hm
    exact Schema.decode_of_reads hchild schema hitem (by omega)
  | _, .map f schema, _, _, _, h, hd => by
    obtain ⟨inner, h, rfl⟩ := h
    rw [Schema.decode, Schema.decode_of_reads hchild schema h hd]
    rfl

theorem Fields.decode_of_reads (hchild : DecodesWithin reads child depth) :
    {α : Type} → (fields : Fields α) → {value : Json} → {path : Json.Path} → {passes : α → Prop} →
      fields.Reads reads value passes → value.depth ≤ depth + 1 →
      ∃ made, fields.decode child ⟨value, path⟩ = .ok made ∧ passes made
  | _, .make value, _, _, _, h, _ => ⟨value, rfl, h⟩
  | _, .field before key schema, value, path, _, h, hd => by
    obtain ⟨f, hf, made, hentry, hpasses⟩ := Fields.decode_of_reads hchild before h hd
    have hfield : Cursor.field ⟨value, path⟩ key schema.absent? (schema.decode child) = .ok made := by
      refine Cursor.field_eq_ok_iff.2 (hentry.imp ?_)
      rintro entries entry rfl hg hreads
      have := Json.depth_of_get? hg
      rw [Json.depth] at hd
      exact Schema.decode_of_reads hchild schema hreads (by omega)
    refine ⟨f made, ?_, hpasses⟩
    rw [Fields.decode, hf, hfield]
    rfl
end

theorem Schema.OfObject.decode_of_reads (hchild : DecodesWithin reads child depth) {value : Json}
    {path : Json.Path} (hd : value.depth ≤ depth + 1) {α : Type} {schema : Schema α} {made : α}
    (ho : schema.OfObject) (h : schema.Reads reads value made) :
    schema.decode child ⟨value, path⟩ = .ok made := by
  induction ho with
  | record fields =>
    obtain ⟨made, hmade, rfl⟩ := Fields.decode_of_reads hchild fields h hd
    exact hmade
  | map f _ ih =>
    obtain ⟨inner, h, rfl⟩ := h
    rw [Schema.decode, ih h]
    rfl

mutual
/-- **What decoding by a schema finds is what a value stands for.** -/
theorem Schema.reads_of_decode
    (hchild : ∀ value node path, child ⟨value, path⟩ = .ok node → reads value node) :
    {α : Type} → (schema : Schema α) → {value : Json} → {path : Json.Path} → {made : α} →
      schema.decode child ⟨value, path⟩ = .ok made → schema.Reads reads value made
  | _, .text, _, _, _, h => Cursor.text_eq_ok_iff.1 h
  | _, .flag, value, _, _, h => by
    cases value with
    | bool value => cases h; rfl
    | _ => cases h
  | _, .scalar, _, _, _, h => Except.ok.inj h
  | _, @Schema.word _ _, value, path, _, h => by
    rw [Schema.decode, Cursor.word] at h
    cases htext : Cursor.text ⟨value, path⟩ with
    | error e => rw [htext] at h; cases h
    | ok text =>
      simp only [htext, Except.bind] at h
      refine ⟨text, Cursor.text_eq_ok_iff.1 htext, ?_⟩
      split at h
      · rename_i hword
        cases h
        exact hword
      · cases h
  | _, .node, value, path, made, h => hchild value made path h
  | _, .record fields, _, _, _, h => Fields.reads_of_decode hchild fields h rfl
  | _, .optional schema, value, path, _, h => by
    rw [Schema.decode] at h
    split at h
    · rename_i hnull
      cases h
      exact .inl ⟨hnull, rfl⟩
    · rename_i hnull
      cases hs : schema.decode child ⟨value, path⟩ with
      | error e => rw [hs] at h; cases h
      | ok inner =>
        rw [hs] at h
        cases h
        exact .inr ⟨hnull, inner, Schema.reads_of_decode hchild schema hs, rfl⟩
  | _, .orElse schema default, _, _, _, h => by
    rw [Schema.decode] at h
    split at h
    · rename_i hnull
      cases h
      exact .inl ⟨hnull, rfl⟩
    · rename_i hnull
      exact .inr ⟨hnull, Schema.reads_of_decode hchild schema h⟩
  | _, .list schema, _, _, _, h => by
    rw [Schema.decode, Cursor.items] at h
    split at h
    · rename_i items hv
      refine ⟨items, hv, Cursor.forall₂_of_itemsFrom h fun item a path hitem => ?_⟩
      exact Schema.reads_of_decode hchild schema hitem
    · cases h
  | _, .map f schema, value, path, _, h => by
    rw [Schema.decode] at h
    cases hs : schema.decode child ⟨value, path⟩ with
    | error e => rw [hs] at h; cases h
    | ok inner =>
      rw [hs] at h
      cases h
      exact ⟨inner, Schema.reads_of_decode hchild schema hs, rfl⟩

theorem Fields.reads_of_decode
    (hchild : ∀ value node path, child ⟨value, path⟩ = .ok node → reads value node) :
    {α : Type} → (fields : Fields α) → {value : Json} → {path : Json.Path} → {made : α} →
      {passes : α → Prop} → fields.decode child ⟨value, path⟩ = .ok made → passes made →
      fields.Reads reads value passes
  | _, .make value, _, _, _, _, h, hpasses => by
    cases h
    exact hpasses
  | _, .field before key schema, value, path, _, _, h, hpasses => by
    rw [Fields.decode] at h
    cases hb : before.decode child ⟨value, path⟩ with
    | error e => rw [hb] at h; cases h
    | ok f =>
      cases hf : Cursor.field ⟨value, path⟩ key schema.absent? (schema.decode child) with
      | error e => rw [hb, hf] at h; cases h
      | ok made =>
        rw [hb, hf] at h
        cases h
        refine Fields.reads_of_decode hchild before hb ⟨made, ?_, hpasses⟩
        exact (Cursor.field_eq_ok_iff.1 hf).imp fun _ _ _ _ => Schema.reads_of_decode hchild schema
end

end Decoding

/-! ## Parts are where the table says -/

/-- What a value stands for: a node of any kind, or one of the kind that its place fixes. -/
def Access.Reads (reads : Json → Node → Prop) : Access → Json → Node → Prop
  | .byType, value, node => reads value node
  | .byPlace, value, node => (Schema.ofKind node.kind).Reads reads value node

/-- A part stands in a value at the end of its path. -/
def NodePart.FoundIn (reads : Json → Node → Prop) (value : Json) (part : NodePart) : Prop :=
  ∃ found, part.path.resolve value = some found ∧ part.access.Reads reads found part.node

namespace NodePart.FoundIn

variable {reads : Json → Node → Prop} {value : Json} {key : String} {access : Access} {α : Type}
  {schema : Schema α} {f : α → Node}

theorem entry {entries : Json.Entries} {found : Json} {node : Node}
    (hg : entries.get? key = some found) (h : access.Reads reads found node) :
    FoundIn reads (.obj entries) ⟨[.name key], access, node⟩ := by
  refine ⟨found, ?_, h⟩
  simp [Json.Path.resolve, Json.Path.step?, hg]

theorem item {entries : Json.Entries} {items : List Json} {index : Nat} {found : Json} {node : Node}
    (hg : entries.get? key = some (.arr items)) (hi : items[index]? = some found)
    (h : access.Reads reads found node) :
    FoundIn reads (.obj entries) ⟨[.name key, .index index], access, node⟩ := by
  refine ⟨found, ?_, h⟩
  simp [Json.Path.resolve, Json.Path.step?, hg, hi]

theorem required (hf : ∀ value a, schema.Reads reads value a → access.Reads reads value (f a))
    (ha : schema.absent? = none) {made : α}
    (h : ReadsEntry (schema.Reads reads) schema.absent? key value made) :
    ∀ part ∈ under access key (some (f made)), part.FoundIn reads value := by
  intro part hp
  obtain ⟨_, ⟨⟩, rfl⟩ := mem_under_iff.1 hp
  obtain ⟨entries, rfl, h⟩ := h
  cases hg : Json.Entries.get? entries key with
  | some found =>
    rw [hg] at h
    exact entry hg (hf found made h)
  | none => simp [hg, ha] at h

theorem optional (hf : ∀ value a, schema.Reads reads value a → access.Reads reads value (f a))
    {made : Option α}
    (h : ReadsEntry (schema.optional.Reads reads) schema.optional.absent? key value made) :
    ∀ part ∈ under access key (made.map f), part.FoundIn reads value := by
  intro part hp
  obtain ⟨_, hmade, rfl⟩ := mem_under_iff.1 hp
  obtain ⟨a, rfl, rfl⟩ := Option.map_eq_some_iff.1 hmade
  obtain ⟨entries, rfl, h⟩ := h
  cases hg : Json.Entries.get? entries key with
  | some found =>
    rw [hg] at h
    rcases h with ⟨-, h⟩ | ⟨-, inner, h, hinner⟩
    · cases h
    · cases hinner
      exact entry hg (hf found a h)
  | none => simp [hg, Schema.absent?] at h

/-- The items of an array, each of which may be a hole. -/
theorem items {make : α → Option Node}
    (hf : ∀ value a node, schema.Reads reads value a → make a = some node →
      access.Reads reads value node) {made : List α}
    (h : ReadsEntry (schema.list.Reads reads) schema.list.absent? key value made) :
    ∀ part ∈ among access key (made.map make), part.FoundIn reads value := by
  intro part hp
  obtain ⟨index, node, hi, rfl⟩ := mem_among_iff.1 hp
  rw [List.getElem?_map, Option.map_eq_some_iff] at hi
  obtain ⟨a, ha, hmake⟩ := hi
  obtain ⟨entries, rfl, h⟩ := h
  cases hg : Json.Entries.get? entries key with
  | some found =>
    rw [hg] at h
    obtain ⟨items, rfl, h⟩ := h
    obtain ⟨item, hitem⟩ : ∃ item, items[index]? = some item := by
      have hlt := (List.getElem?_eq_some_iff.1 ha).1
      rw [← h.length_eq] at hlt
      exact ⟨_, List.getElem?_eq_getElem hlt⟩
    have hreads : schema.Reads reads item a := by
      obtain ⟨hlt, rfl⟩ := List.getElem?_eq_some_iff.1 hitem
      obtain ⟨hlt', rfl⟩ := List.getElem?_eq_some_iff.1 ha
      exact h.get hlt hlt'
    exact FoundIn.item hg hitem (hf item a node hreads hmake)
  | none => simp [hg, Schema.absent?] at h

theorem child {node : Node}
    (h : ReadsEntry (Schema.node.Reads reads) Schema.node.absent? key value node) :
    ∀ part ∈ NodePart.child key (some node), part.FoundIn reads value :=
  have hf : ∀ value node, Schema.node.Reads reads value node →
      Access.byType.Reads reads value node := fun _ _ h => h
  required hf rfl h

theorem childOption {node? : Option Node}
    (h : ReadsEntry (Schema.node.optional.Reads reads) Schema.node.optional.absent? key value node?) :
    ∀ part ∈ NodePart.child key node?, part.FoundIn reads value := by
  have hf : ∀ value node, Schema.node.Reads reads value node →
      Access.byType.Reads reads value node := fun _ _ h => h
  simpa [NodePart.child] using optional hf h

theorem children {nodes : List Node}
    (h : ReadsEntry (Schema.nodes.Reads reads) Schema.nodes.absent? key value nodes) :
    ∀ part ∈ NodePart.children key nodes, part.FoundIn reads value := by
  refine items (fun value node other h hsome => ?_) h
  cases hsome
  exact h

theorem holes {elements : List (Option Node)}
    (h : ReadsEntry (Schema.node.optional.list.Reads reads) Schema.node.optional.list.absent? key value
      elements) : ∀ part ∈ among .byType key elements, part.FoundIn reads value := by
  have hf : ∀ value element node, Schema.node.optional.Reads reads value element →
      element = some node → Access.byType.Reads reads value node := by
    rintro value element node (⟨-, rfl⟩ | ⟨-, inner, h, rfl⟩) hsome
    · cases hsome
    · cases hsome
      exact h
  simpa using items hf h

section Held

variable (hf : ∀ a, Schema.ofKind (f a).kind = .map f schema)

include hf

theorem reads_byPlace (value : Json) (a : α) (h : schema.Reads reads value a) :
    Access.byPlace.Reads reads value (f a) := by
  rw [Access.Reads, hf]
  exact ⟨a, h, rfl⟩

theorem held (ha : schema.absent? = none) {made : α}
    (h : ReadsEntry (schema.Reads reads) schema.absent? key value made) :
    ∀ part ∈ NodePart.held key (some (f made)), part.FoundIn reads value :=
  required (reads_byPlace hf) ha h

theorem heldOption {made : Option α}
    (h : ReadsEntry (schema.optional.Reads reads) schema.optional.absent? key value made) :
    ∀ part ∈ NodePart.held key (made.map f), part.FoundIn reads value :=
  optional (reads_byPlace hf) h

theorem heldEach {made : List α}
    (h : ReadsEntry (schema.list.Reads reads) schema.list.absent? key value made) :
    ∀ part ∈ NodePart.heldEach key (made.map f), part.FoundIn reads value := by
  rw [NodePart.heldEach, List.map_map]
  refine items (fun value a node h hsome => ?_) h
  cases hsome
  exact reads_byPlace hf value a h

end Held

end NodePart.FoundIn

section Kinds

variable {reads : Json → Node → Prop} {value : Json}

open NodePart.FoundIn

theorem Func.found_of_reads {function : Func} (h : Schema.func.Reads reads value function) :
    ∀ part ∈ function.parts, part.FoundIn reads value := by
  obtain ⟨id, hid, params, hparams, body, hbody, _, -, _, -, _, -, rfl⟩ := h
  simp only [Func.parts, List.forall_mem_append]
  exact ⟨⟨heldOption (fun _ => rfl) hid, children hparams⟩, held (fun _ => rfl) rfl hbody⟩

theorem Class.found_of_reads {definition : Class}
    (h : Schema.classDefinition.Reads reads value definition) :
    ∀ part ∈ definition.parts, part.FoundIn reads value := by
  obtain ⟨id, hid, superClass, hsuper, members, hmembers, rfl⟩ := h
  simp only [Class.parts, List.forall_mem_append]
  exact ⟨⟨heldOption (fun _ => rfl) hid, childOption hsuper⟩, held (fun _ => rfl) rfl hmembers⟩

/-- **Whatever is read by the schema of a kind is a node of that kind, with its parts in place.** The
kinds are grouped by the shape of their fields. -/
theorem Schema.found_of_reads {kind : Kind} {node : Node} (h : (ofKind kind).Reads reads value node) :
    node.kind = kind ∧ ∀ part ∈ node.parts, part.FoundIn reads value := by
  cases kind with
  | debuggerStatement | emptyStatement | importCallee | superReference | thisExpression =>
    cases h
    exact ⟨rfl, nofun⟩
  | identifier | literal | templateElement =>
    obtain ⟨_, -, rfl⟩ := h
    exact ⟨rfl, nofun⟩
  | awaitExpression | exportDefaultDeclaration | restElement | spreadElement | throwStatement =>
    obtain ⟨part, hpart, rfl⟩ := h
    exact ⟨rfl, child hpart⟩
  | expressionStatement =>
    obtain ⟨expression, hexpression, _, -, rfl⟩ := h
    exact ⟨rfl, child hexpression⟩
  | unaryExpression | updateExpression =>
    obtain ⟨_, -, argument, hargument, _, -, rfl⟩ := h
    exact ⟨rfl, child hargument⟩
  | returnStatement =>
    obtain ⟨argument, hargument, rfl⟩ := h
    exact ⟨rfl, childOption hargument⟩
  | yieldExpression =>
    obtain ⟨argument, hargument, _, -, rfl⟩ := h
    exact ⟨rfl, childOption hargument⟩
  | arrayExpression | arrayPattern =>
    obtain ⟨elements, helements, rfl⟩ := h
    exact ⟨rfl, holes helements⟩
  | objectExpression | objectPattern | sequenceExpression =>
    obtain ⟨nodes, hnodes, rfl⟩ := h
    exact ⟨rfl, children hnodes⟩
  | blockStatement =>
    obtain ⟨_, ⟨body, hbody, rfl⟩, rfl⟩ := h
    exact ⟨rfl, children hbody⟩
  | program =>
    obtain ⟨_, -, body, hbody, rfl⟩ := h
    exact ⟨rfl, children hbody⟩
  | assignmentPattern | doWhileStatement | whileStatement | withStatement =>
    obtain ⟨first, hfirst, second, hsecond, rfl⟩ := h
    simp only [Node.parts, List.forall_mem_append]
    exact ⟨rfl, child hfirst, child hsecond⟩
  | assignmentExpression | binaryExpression | logicalExpression | memberExpression =>
    obtain ⟨_, -, first, hfirst, second, hsecond, rfl⟩ := h
    simp only [Node.parts, List.forall_mem_append]
    exact ⟨rfl, child hfirst, child hsecond⟩
  | conditionalExpression | forOfStatement =>
    obtain ⟨first, hfirst, second, hsecond, third, hthird, rfl⟩ := h
    simp only [Node.parts, List.forall_mem_append]
    exact ⟨rfl, ⟨child hfirst, child hsecond⟩, child hthird⟩
  | forInStatement =>
    obtain ⟨left, hleft, right, hright, body, hbody, _, -, rfl⟩ := h
    simp only [Node.parts, List.forall_mem_append]
    exact ⟨rfl, ⟨child hleft, child hright⟩, child hbody⟩
  | ifStatement =>
    obtain ⟨test, htest, yes, hyes, no, hno, rfl⟩ := h
    simp only [Node.parts, List.forall_mem_append]
    exact ⟨rfl, ⟨child htest, child hyes⟩, childOption hno⟩
  | forStatement =>
    obtain ⟨init, hinit, test, htest, update, hupdate, body, hbody, rfl⟩ := h
    simp only [Node.parts, List.forall_mem_append]
    exact ⟨rfl, ⟨⟨childOption hinit, childOption htest⟩, childOption hupdate⟩, child hbody⟩
  | property =>
    obtain ⟨key, hkey, _, -, value, hvalue, _, -, _, -, _, -, rfl⟩ := h
    simp only [Node.parts, List.forall_mem_append]
    exact ⟨rfl, child hkey, childOption hvalue⟩
  | callExpression | newExpression =>
    obtain ⟨callee, hcallee, arguments, harguments, rfl⟩ := h
    simp only [Node.parts, List.forall_mem_append]
    exact ⟨rfl, child hcallee, children harguments⟩
  | arrowFunctionExpression =>
    obtain ⟨id, hid, params, hparams, body, hbody, _, -, _, -, _, -, rfl⟩ := h
    simp only [Node.parts, List.forall_mem_append]
    exact ⟨rfl, ⟨heldOption (fun _ => rfl) hid, children hparams⟩, child hbody⟩
  | breakStatement | continueStatement =>
    obtain ⟨label, hlabel, rfl⟩ := h
    exact ⟨rfl, heldOption (fun _ => rfl) hlabel⟩
  | labeledStatement =>
    obtain ⟨label, hlabel, body, hbody, rfl⟩ := h
    simp only [Node.parts, List.forall_mem_append]
    exact ⟨rfl, held (fun _ => rfl) rfl hlabel, child hbody⟩
  | importSpecifier =>
    obtain ⟨inner, hinner, imported, himported, rfl⟩ := h
    simp only [Node.parts, List.forall_mem_append]
    exact ⟨rfl, held (fun _ => rfl) rfl hinner, heldOption (fun _ => rfl) himported⟩
  | metaProperty =>
    obtain ⟨base, hbase, property, hproperty, rfl⟩ := h
    simp only [Node.parts, List.forall_mem_append]
    exact ⟨rfl, held (fun _ => rfl) rfl hbase, held (fun _ => rfl) rfl hproperty⟩
  | exportAllDeclaration =>
    obtain ⟨source, hsource, rfl⟩ := h
    exact ⟨rfl, held (fun _ => rfl) rfl hsource⟩
  | exportNamedDeclaration =>
    obtain ⟨declaration, hdeclaration, specifiers, hspecifiers, source, hsource, rfl⟩ := h
    simp only [Node.parts, List.forall_mem_append]
    exact ⟨rfl, ⟨childOption hdeclaration, heldEach (fun _ => rfl) hspecifiers⟩,
      heldOption (fun _ => rfl) hsource⟩
  | variableDeclaration =>
    obtain ⟨declarations, hdeclarations, _, -, rfl⟩ := h
    exact ⟨rfl, heldEach (fun _ => rfl) hdeclarations⟩
  | switchStatement =>
    obtain ⟨discriminant, hdiscriminant, cases, hcases, rfl⟩ := h
    simp only [Node.parts, List.forall_mem_append]
    exact ⟨rfl, child hdiscriminant, heldEach (fun _ => rfl) hcases⟩
  | tryStatement =>
    obtain ⟨block, hblock, handler, hhandler, finalizer, hfinalizer, rfl⟩ := h
    simp only [Node.parts, List.forall_mem_append]
    exact ⟨rfl, ⟨held (fun _ => rfl) rfl hblock, heldOption (fun _ => rfl) hhandler⟩,
      heldOption (fun _ => rfl) hfinalizer⟩
  | taggedTemplateExpression =>
    obtain ⟨tag, htag, quasi, hquasi, rfl⟩ := h
    simp only [Node.parts, List.forall_mem_append]
    exact ⟨rfl, child htag, held (fun _ => rfl) rfl hquasi⟩
  | functionDeclaration | functionExpression =>
    obtain ⟨function, hfunction, rfl⟩ := h
    exact ⟨rfl, function.found_of_reads hfunction⟩
  | classDeclaration | classExpression =>
    obtain ⟨definition, hdefinition, rfl⟩ := h
    exact ⟨rfl, definition.found_of_reads hdefinition⟩
  | exportSpecifier =>
    obtain ⟨_, ⟨exported, hexported, inner, hinner, rfl⟩, rfl⟩ := h
    simp only [Node.parts, List.forall_mem_append]
    exact ⟨rfl, held (fun _ => rfl) rfl hexported, held (fun _ => rfl) rfl hinner⟩
  | classBody =>
    obtain ⟨_, ⟨members, hmembers, rfl⟩, rfl⟩ := h
    exact ⟨rfl, heldEach (fun _ => rfl) hmembers⟩
  | methodDefinition =>
    obtain ⟨_, ⟨key, hkey, _, -, value, hvalue, _, -, _, -, rfl⟩, rfl⟩ := h
    simp only [Node.parts, List.forall_mem_append]
    exact ⟨rfl, childOption hkey, heldOption (fun _ => rfl) hvalue⟩
  | variableDeclarator =>
    obtain ⟨_, ⟨id, hid, init, hinit, rfl⟩, rfl⟩ := h
    simp only [Node.parts, List.forall_mem_append]
    exact ⟨rfl, child hid, childOption hinit⟩
  | switchCase =>
    obtain ⟨_, ⟨test, htest, consequent, hconsequent, rfl⟩, rfl⟩ := h
    simp only [Node.parts, List.forall_mem_append]
    exact ⟨rfl, childOption htest, children hconsequent⟩
  | catchClause =>
    obtain ⟨_, ⟨param, hparam, body, hbody, rfl⟩, rfl⟩ := h
    simp only [Node.parts, List.forall_mem_append]
    exact ⟨rfl, childOption hparam, held (fun _ => rfl) rfl hbody⟩
  | templateLiteral =>
    obtain ⟨_, ⟨quasis, hquasis, expressions, hexpressions, rfl⟩, rfl⟩ := h
    simp only [Node.parts, List.forall_mem_append]
    exact ⟨rfl, heldEach (fun _ => rfl) hquasis, children hexpressions⟩

end Kinds

theorem Json.Path.resolve_append (path rest : Path) (value : Json) :
    resolve (path ++ rest) value = (resolve path value).bind (resolve rest) := by
  induction path generalizing value with
  | nil => rfl
  | cons key tail ih =>
    rw [List.cons_append, resolve, resolve, Option.bind_assoc]
    exact congrArg _ (funext ih)

namespace Node

/-- A value is decoded to a node somewhere in a tree. -/
def Decoded (value : Json) (node : Node) : Prop :=
  ∃ depth path, decodeWithin depth ⟨value, path⟩ = .ok node

/-- What is decoded is an object that names its kind, read by the schema of that kind. -/
theorem Decoded.reads {value : Json} {node : Node} (h : Decoded value node) :
    (∃ entries : Json.Entries, value = .obj entries ∧
        entries.get? "type" = some (.str node.kind.name)) ∧
      (Schema.ofKind node.kind).Reads Decoded value node := by
  obtain ⟨depth, path, h⟩ := h
  cases depth with
  | zero => cases h
  | succ depth =>
    rw [decodeWithin] at h
    cases hname : Cursor.field ⟨value, path⟩ "type" none Cursor.text with
    | error e => rw [hname] at h; cases h
    | ok name =>
      rw [hname] at h
      obtain ⟨entries, entry, hv, hg, htext⟩ := Cursor.entry_of_field hname
      obtain rfl : entry = .str name := Cursor.text_eq_ok_iff.1 htext
      cases hkind : Kind.ofName? name with
      | none => simp only [bind, Except.bind, hkind] at h; cases h
      | some kind =>
        simp only [bind, Except.bind, hkind] at h
        obtain rfl := Kind.name_of_ofName? hkind
        have hreads : (Schema.ofKind kind).Reads Decoded value node :=
          Schema.reads_of_decode (fun _ _ path h => ⟨depth, path, h⟩) (.ofKind kind) h
        obtain ⟨rfl, -⟩ := Schema.found_of_reads hreads
        exact ⟨⟨entries, hv, hg⟩, hreads⟩

/-- What stands inside a node stands at the same path in the value that was decoded. -/
theorem Inside.found {root : Node} {value : Json} (hroot : Decoded value root) {path : Json.Path}
    {access : Access} {node : Node} (h : root.Inside path access node) :
    ∃ found, path.resolve value = some found ∧ access.Reads Decoded found node := by
  induction h with
  | root => exact ⟨value, rfl, hroot⟩
  | @part path access node part _ hp ih =>
    obtain ⟨found, hfound, hreads⟩ := ih
    have hkind : (Schema.ofKind node.kind).Reads Decoded found node := by
      cases access with
      | byType => exact (Decoded.reads hreads).2
      | byPlace => exact hreads
    obtain ⟨inner, hinner, hpart⟩ := (Schema.found_of_reads hkind).2 part hp
    refine ⟨inner, ?_, hpart⟩
    rw [Json.Path.resolve_append, hfound]
    exact hinner

end Node

end SwiftScribe
