import SwiftScribe.Node.Decode

/-!
# Decode errors point at their cause

A decode error names a place in the tree that was decoded. What is due at a place is told from the
schema alone (`Due`), and an error is about a certain value there (`DecodeError.Culprit`): the object
that lacks a key, the `null`, the value of another kind, the node of an unknown kind, the string that
is no word of its set.

* `Json.Path.resolve_join`: the place of a member is one step further.
* `Schema.blames_of_decode`: what a schema reports has a culprit, if that holds of the nodes inside.
* `Node.blames_of_decodeWithin`: **every decode error has a culprit**, at any depth.
* `Node.decode_error_culprit`: the diagnosis shows the culprit of a missing key, and adds nothing to
  any other error.
-/

namespace SwiftScribe

namespace Json

/-! ## Kinds and places -/

section Kinds

variable {value : Json}

theorem eq_null_of_kind (h : value.kind = .null) : value = .null := by
  cases value <;> simp_all [kind]

theorem eq_bool_of_kind (h : value.kind = .boolean) : ∃ b, value = .bool b := by
  cases value <;> simp_all [kind]

theorem eq_str_of_kind (h : value.kind = .string) : ∃ s, value = .str s := by
  cases value <;> simp_all [kind]

theorem eq_arr_of_kind (h : value.kind = .array) : ∃ items, value = .arr items := by
  cases value <;> simp_all [kind]

theorem eq_obj_of_kind (h : value.kind = .object) : ∃ entries, value = .obj entries := by
  cases value <;> simp_all [kind]

end Kinds

theorem Path.resolve_join (path : Path) (key : Key) (root : Json) :
    (path.join key).resolve root = (path.resolve root).bind fun value => step? value key := by
  unfold join
  induction path generalizing root with
  | nil => simp [resolve, Option.bind_fun_some]
  | cons first rest ih =>
    simp only [List.cons_append, resolve]
    cases step? root first with
    | none => rfl
    | some next => exact ih next

theorem depth_of_get? {entries : Entries} {key : String} {value : Json}
    (h : entries.get? key = some value) : value.depth ≤ depthEntries entries := by
  induction entries with
  | nil => simp [Entries.get?] at h
  | cons head rest ih =>
    obtain ⟨name, first⟩ := head
    simp only [Entries.get?, List.lookup_cons] at h
    rw [depthEntries]
    split at h
    · cases h
      exact Nat.le_max_left _ _
    · exact Nat.le_trans (ih h) (Nat.le_max_right _ _)

theorem depth_of_mem {items : List Json} {item : Json} (h : item ∈ items) :
    item.depth ≤ depthItems items := by
  induction items with
  | nil => cases h
  | cons first rest ih =>
    rw [depthItems]
    rcases List.mem_cons.1 h with rfl | h
    · exact Nat.le_max_left _ _
    · exact Nat.le_trans (ih h) (Nat.le_max_right _ _)

end Json

/-! ## What is due -/

/-- A field of an object, with the schema of its value. -/
inductive Fields.Has : {α β : Type} → Fields β → String → Schema α → Prop
  | here {α β : Type} (before : Fields (α → β)) (key : String) (schema : Schema α) :
    Has (.field before key schema) key schema
  | before {α β γ : Type} {before : Fields (γ → β)} {key : String} {schema : Schema α}
    (other : String) (last : Schema γ) (h : before.Has key schema) :
    Has (.field before other last) key schema

/-- **What is due at a place** of a tree: the schema by which the value there has to be read. The root
is a node. A node has a `type`, and is read by the schema of its kind; what may be missing is read
only where it is not `null`. -/
inductive Due (root : Json) : {α : Type} → Json.Path → Schema α → Prop
  | root : Due root [] .node
  | type {path : Json.Path} (h : Due root path .node) : Due root (path.join (.name "type")) .text
  | kind {path : Json.Path} {entries : Json.Entries} {kind : Kind} (h : Due root path .node)
    (hv : path.resolve root = some (.obj entries))
    (hk : entries.get? "type" = some (.str kind.name)) : Due root path (.ofKind kind)
  | field {α β : Type} {path : Json.Path} {fields : Fields β} {key : String} {schema : Schema α}
    (h : Due root path (.record fields)) (hf : fields.Has key schema) :
    Due root (path.join (.name key)) schema
  | item {α : Type} {path : Json.Path} {schema : Schema α} (index : Nat)
    (h : Due root path (.list schema)) : Due root (path.join (.index index)) schema
  | optional {α : Type} {path : Json.Path} {schema : Schema α} {value : Json}
    (h : Due root path (.optional schema)) (hv : path.resolve root = some value)
    (hn : value.kind ≠ .null) : Due root path schema
  | orElse {α : Type} {path : Json.Path} {schema : Schema α} {default : α} {value : Json}
    (h : Due root path (.orElse schema default)) (hv : path.resolve root = some value)
    (hn : value.kind ≠ .null) : Due root path schema
  | map {α β : Type} {path : Json.Path} {schema : Schema α} {f : α → β}
    (h : Due root path (.map f schema)) : Due root path schema

/-- The kind of value that a schema asks for, if it asks for one. -/
def Schema.kind? : {α : Type} → Schema α → Option Json.Kind
  | _, .text => some .string
  | _, .flag => some .boolean
  | _, @Schema.word _ _ => some .string
  | _, .node => some .object
  | _, .record _ => some .object
  | _, .list _ => some .array
  | _, _ => none

/-- **The value that an error is about**, and what is wrong with it. -/
def DecodeError.Culprit (root value : Json) : DecodeError → Prop
  | .keyNotFound key path =>
    ∃ (parent : Json.Path) (entries : Json.Entries),
      path = parent.join (.name key) ∧ parent.resolve root = some value ∧
      value = .obj entries ∧ Json.Entries.get? entries key = none ∧
      ∃ (α : Type) (schema : Schema α), Due root path schema ∧ schema.absent? = none
  | .valueNotFound expected path =>
    path.resolve root = some value ∧ value = .null ∧
      ∃ (α : Type) (schema : Schema α), Due root path schema ∧ schema.kind? = some expected
  | .typeMismatch expected found path =>
    path.resolve root = some value ∧ value.kind = found ∧ found ≠ expected ∧ found ≠ .null ∧
      ∃ (α : Type) (schema : Schema α), Due root path schema ∧ schema.kind? = some expected
  | .unknownKind name path =>
    path.resolve root = some value ∧ Due root path .node ∧
      ∃ entries, value = .obj entries ∧ Json.Entries.get? entries "type" = some (.str name) ∧
        name ∉ Kind.all.map Kind.name
  | .unknownWord text title path =>
    path.resolve root = some value ∧ value = .str text ∧
      ∃ (α : Type) (_ : Word α), Due root path (.word : Schema α) ∧ title = Word.title α ∧
        text ∉ (Word.all : List α).map Word.spelling

/-- An error has a culprit in a tree. -/
def DecodeError.Blames (root : Json) (error : DecodeError) : Prop := ∃ value, error.Culprit root value

/-! ## Cursors -/

namespace Cursor

variable {root : Json} {cursor : Cursor} {error : DecodeError}

/-- The cursor is at its place in a tree. -/
def At (root : Json) (cursor : Cursor) : Prop := cursor.path.resolve root = some cursor.value

theorem At.field (hat : cursor.At root) {entries : Json.Entries} (hv : cursor.value = .obj entries)
    {key : String} {value : Json} (hg : entries.get? key = some value) :
    At root ⟨value, cursor.path.join (.name key)⟩ := by
  unfold At at hat ⊢
  simp only [Json.Path.resolve_join, hat, hv, Option.bind_some, Json.Path.step?, hg]

theorem At.item (hat : cursor.At root) {items : List Json} (hv : cursor.value = .arr items)
    {index : Nat} {value : Json} (hi : items[index]? = some value) :
    At root ⟨value, cursor.path.join (.index index)⟩ := by
  unfold At at hat ⊢
  simp only [Json.Path.resolve_join, hat, hv, Option.bind_some, Json.Path.step?, hi]

/-- A value of another kind is the culprit of a mismatch. -/
theorem blames_mismatch (hat : cursor.At root) {expected : Json.Kind} {α : Type} {schema : Schema α}
    (hdue : Due root cursor.path schema) (hk : schema.kind? = some expected)
    (hne : cursor.value.kind ≠ expected) : (cursor.mismatch expected).Blames root := by
  refine ⟨cursor.value, ?_⟩
  unfold mismatch
  split
  · rename_i hnull
    exact ⟨hat, Json.eq_null_of_kind hnull, α, schema, hdue, hk⟩
  · rename_i hnull
    exact ⟨hat, rfl, hne, hnull, α, schema, hdue, hk⟩

theorem text_eq_ok_iff {s : String} : cursor.text = .ok s ↔ cursor.value = .str s := by
  unfold text
  split <;> simp_all

theorem blames_of_text (hat : cursor.At root) {α : Type} {schema : Schema α}
    (hdue : Due root cursor.path schema) (hk : schema.kind? = some .string)
    (h : cursor.text = .error error) : error.Blames root := by
  unfold text at h
  split at h
  · cases h
  · rename_i hne
    cases h
    refine blames_mismatch hat hdue hk fun hkind => ?_
    obtain ⟨s, hs⟩ := Json.eq_str_of_kind hkind
    exact hne s hs

theorem blames_of_flag (hat : cursor.At root) (hdue : Due root cursor.path .flag)
    (h : cursor.flag = .error error) : error.Blames root := by
  unfold flag at h
  split at h
  · cases h
  · rename_i hne
    cases h
    refine blames_mismatch hat hdue rfl fun hkind => ?_
    obtain ⟨b, hb⟩ := Json.eq_bool_of_kind hkind
    exact hne b hb

theorem blames_of_word (hat : cursor.At root) {α : Type} [Word α]
    (hdue : Due root cursor.path (.word : Schema α))
    (h : (cursor.word : Except DecodeError α) = .error error) : error.Blames root := by
  unfold word at h
  cases ht : cursor.text with
  | error e =>
    rw [ht] at h
    cases h
    exact blames_of_text hat hdue rfl ht
  | ok spelled =>
    have hv := text_eq_ok_iff.1 ht
    rw [ht] at h
    simp only [Except.bind] at h
    split at h
    · cases h
    · rename_i hnone
      cases h
      refine ⟨cursor.value, hat, hv, α, ‹_›, hdue, rfl, fun hm => ?_⟩
      obtain ⟨w, hw, hs⟩ := List.mem_map.1 hm
      have := List.find?_eq_none.1 hnone w hw
      simp [hs] at this

/-- A field fails because the object lacks its key, because there is no object, or because its value
fails. -/
theorem blames_of_field (hat : cursor.At root) {α β : Type} {schema : Schema α} {whole : Schema β}
    {key : String} (hwhole : Due root cursor.path whole) (hkind : whole.kind? = some .object)
    (hdue : Due root (cursor.path.join (.name key)) schema)
    {decode : Cursor → Except DecodeError α}
    (hdecode : ∀ value entries, cursor.value = .obj entries →
      Json.Entries.get? entries key = some value → At root ⟨value, cursor.path.join (.name key)⟩ →
      decode ⟨value, cursor.path.join (.name key)⟩ = .error error → error.Blames root)
    (h : cursor.field key schema.absent? decode = .error error) : error.Blames root := by
  unfold field at h
  split at h
  · rename_i entries hv
    split at h
    · rename_i absent value hg
      exact hdecode value entries hv hg (hat.field hv hg) h
    · cases h
    · rename_i hg habsent
      cases h
      refine ⟨cursor.value, cursor.path, entries, rfl, hat, hv, hg, α, schema, hdue, habsent⟩
  · rename_i hne
    cases h
    refine blames_mismatch hat hwhole hkind fun hk => ?_
    obtain ⟨entries, hv⟩ := Json.eq_obj_of_kind hk
    exact hne entries hv

/-- A field without a default that is read stands in an object. -/
theorem entry_of_field {α : Type} {key : String} {decode : Cursor → Except DecodeError α} {result : α}
    (h : cursor.field key none decode = .ok result) :
    ∃ entries value, cursor.value = .obj entries ∧ Json.Entries.get? entries key = some value ∧
      decode ⟨value, cursor.path.join (.name key)⟩ = .ok result := by
  unfold field at h
  split at h
  · rename_i entries hv
    cases hg : Json.Entries.get? entries key with
    | none => simp [hg] at h
    | some value => exact ⟨entries, value, hv, hg, by simpa [hg] using h⟩
  · cases h

/-- The items of an array fail where one of them does. -/
theorem error_of_itemsFrom {α : Type} {path : Json.Path} {decode : Cursor → Except DecodeError α}
    {items : List Json} {start : Nat} (h : itemsFrom path decode start items = .error error) :
    ∃ index item, items[index]? = some item ∧
      decode ⟨item, path.join (.index (start + index))⟩ = .error error := by
  induction items generalizing start with
  | nil => cases h
  | cons item rest ih =>
    rw [itemsFrom] at h
    cases hd : decode ⟨item, path.join (.index start)⟩ with
    | error e =>
      rw [hd] at h
      cases h
      exact ⟨0, item, rfl, hd⟩
    | ok first =>
      cases hr : itemsFrom path decode (start + 1) rest with
      | ok others => rw [hd, hr] at h; cases h
      | error e =>
        rw [hd, hr] at h
        cases h
        obtain ⟨index, found, hi, hf⟩ := ih hr
        refine ⟨index + 1, found, hi, ?_⟩
        rw [← hf, Nat.add_assoc, Nat.add_comm 1 index]

end Cursor

/-! ## Schemas -/

section

variable {root : Json} {child : Cursor → Except DecodeError Node} {depth : Nat}

/-- Nodes of at most some depth that cannot be decoded have a culprit. -/
def BlamesWithin (root : Json) (child : Cursor → Except DecodeError Node) (depth : Nat) : Prop :=
  ∀ (cursor : Cursor) (error : DecodeError), cursor.At root → Due root cursor.path .node →
    cursor.value.depth ≤ depth → child cursor = .error error → error.Blames root

-- The fields of an object may be one level deeper than the nodes inside: the object is that level.
mutual
theorem Schema.blames_of_decode (hchild : BlamesWithin root child depth) :
    {α : Type} → (schema : Schema α) → (cursor : Cursor) → cursor.At root →
      Due root cursor.path schema → cursor.value.depth ≤ depth → {error : DecodeError} →
      schema.decode child cursor = .error error → error.Blames root
  | _, .text, _, hat, hdue, _, _, h => Cursor.blames_of_text hat hdue rfl h
  | _, .flag, _, hat, hdue, _, _, h => Cursor.blames_of_flag hat hdue h
  | _, .scalar, _, _, _, _, _, h => by cases h
  | _, @Schema.word _ _, _, hat, hdue, _, _, h => Cursor.blames_of_word hat hdue h
  | _, .node, cursor, hat, hdue, hd, error, h => hchild cursor error hat hdue hd h
  | _, .record fields, cursor, hat, hdue, hd, _, h =>
    Fields.blames_of_decode hchild fields cursor hat hdue (fun hf => hf) (Nat.le_succ_of_le hd) h
  | _, .optional schema, cursor, hat, hdue, hd, _, h => by
    rw [Schema.decode] at h
    split at h
    · cases h
    · rename_i hnull
      cases hs : schema.decode child cursor with
      | ok value => rw [hs] at h; cases h
      | error e =>
        rw [hs] at h
        cases h
        exact Schema.blames_of_decode hchild schema cursor hat (hdue.optional hat hnull) hd hs
  | _, .orElse schema default, cursor, hat, hdue, hd, _, h => by
    rw [Schema.decode] at h
    split at h
    · cases h
    · rename_i hnull
      exact Schema.blames_of_decode hchild schema cursor hat (hdue.orElse hat hnull) hd h
  | _, .list schema, cursor, hat, hdue, hd, _, h => by
    rw [Schema.decode, Cursor.items] at h
    split at h
    · rename_i items hv
      obtain ⟨index, item, hi, hitem⟩ := Cursor.error_of_itemsFrom h
      rw [Nat.zero_add] at hitem
      have hdepth : item.depth ≤ depth := by
        have := Json.depth_of_mem (List.mem_of_getElem? hi)
        rw [hv, Json.depth] at hd
        omega
      exact Schema.blames_of_decode hchild schema ⟨item, _⟩ (hat.item hv hi) (hdue.item index)
        hdepth hitem
    · rename_i hne
      cases h
      refine Cursor.blames_mismatch hat hdue rfl fun hkind => ?_
      obtain ⟨items, hv⟩ := Json.eq_arr_of_kind hkind
      exact hne items hv
  | _, .map f schema, cursor, hat, hdue, hd, _, h => by
    rw [Schema.decode] at h
    cases hs : schema.decode child cursor with
    | ok value => rw [hs] at h; cases h
    | error e =>
      rw [hs] at h
      cases h
      exact Schema.blames_of_decode hchild schema cursor hat hdue.map hd hs

theorem Fields.blames_of_decode (hchild : BlamesWithin root child depth) {γ : Type}
    {whole : Fields γ} :
    {β : Type} → (fields : Fields β) → (cursor : Cursor) → cursor.At root →
      Due root cursor.path (.record whole) →
      (∀ {α : Type} {key : String} {schema : Schema α},
        fields.Has key schema → whole.Has key schema) →
      cursor.value.depth ≤ depth + 1 → {error : DecodeError} →
      fields.decode child cursor = .error error → error.Blames root
  | _, .make value, _, _, _, _, _, _, h => by cases h
  | _, .field before key schema, cursor, hat, hdue, hsub, hd, _, h => by
    rw [Fields.decode] at h
    cases hb : before.decode child cursor with
    | error e =>
      rw [hb] at h
      cases h
      exact Fields.blames_of_decode hchild before cursor hat hdue
        (fun hf => hsub (hf.before key schema)) hd hb
    | ok f =>
      cases hf : cursor.field key schema.absent? (schema.decode child) with
      | ok value => rw [hb, hf] at h; cases h
      | error e =>
        rw [hb, hf] at h
        cases h
        have hdue' := hdue.field (hsub (.here before key schema))
        refine Cursor.blames_of_field hat hdue rfl hdue' ?_ hf
        intro value entries hv hg hat' herror
        have hdepth : value.depth ≤ depth := by
          have := Json.depth_of_get? hg
          rw [hv, Json.depth] at hd
          omega
        exact Schema.blames_of_decode hchild schema _ hat' hdue' hdepth herror
end

end

/-! ## Nodes -/

/-- A schema that looks at an object before it looks at a node. -/
inductive Schema.OfObject : {α : Type} → Schema α → Prop
  | record {α : Type} (fields : Fields α) : OfObject (.record fields)
  | map {α β : Type} (f : α → β) {schema : Schema α} (h : schema.OfObject) : OfObject (.map f schema)

/-- Every kind of node is an object. -/
theorem Schema.ofObject_ofKind (kind : Kind) : (Schema.ofKind kind).OfObject := by
  cases kind <;> repeat constructor

theorem Schema.OfObject.blames_of_decode {root : Json} {child : Cursor → Except DecodeError Node}
    {depth : Nat} (hchild : BlamesWithin root child depth) {cursor : Cursor} (hat : cursor.At root)
    (hd : cursor.value.depth ≤ depth + 1) {error : DecodeError} {α : Type} {schema : Schema α}
    (ho : schema.OfObject) (hdue : Due root cursor.path schema)
    (h : schema.decode child cursor = .error error) : error.Blames root := by
  induction ho with
  | record fields => exact Fields.blames_of_decode hchild fields cursor hat hdue (fun hf => hf) hd h
  | @map _ _ f schema _ ih =>
    rw [Schema.decode] at h
    cases hs : schema.decode child cursor with
    | ok value => rw [hs] at h; cases h
    | error e =>
      rw [hs] at h
      cases h
      exact ih hdue.map hs

theorem Kind.name_of_ofName? {name : String} {kind : Kind} (h : Kind.ofName? name = some kind) :
    kind.name = name := by
  simpa using List.find?_some h

theorem Kind.not_mem_of_ofName? {name : String} (h : Kind.ofName? name = none) :
    name ∉ Kind.all.map Kind.name := by
  intro hm
  obtain ⟨kind, hk, rfl⟩ := List.mem_map.1 hm
  have := List.find?_eq_none.1 h kind hk
  simp at this

namespace Node

/-- **Every decode error has a culprit.** The induction is on the depth that is left; a value without
depth is no object, and so no node. -/
theorem blames_of_decodeWithin (root : Json) (depth : Nat) :
    BlamesWithin root (decodeWithin depth) depth := by
  induction depth with
  | zero =>
    intro cursor error hat hdue hd h
    cases h
    refine Cursor.blames_mismatch hat hdue rfl fun hkind => ?_
    obtain ⟨entries, hv⟩ := Json.eq_obj_of_kind hkind
    rw [hv, Json.depth] at hd
    omega
  | succ depth ih =>
    intro cursor error hat hdue hd h
    rw [decodeWithin] at h
    cases hname : cursor.field "type" none Cursor.text with
    | error e =>
      rw [hname] at h
      cases h
      refine Cursor.blames_of_field hat hdue rfl hdue.type ?_ hname
      intro value entries hv hg hat' herror
      exact Cursor.blames_of_text hat' hdue.type rfl herror
    | ok name =>
      rw [hname] at h
      obtain ⟨entries, value, hv, hg, htext⟩ := Cursor.entry_of_field hname
      have hvalue : value = .str name := Cursor.text_eq_ok_iff.1 htext
      subst hvalue
      cases hkind : Kind.ofName? name with
      | some kind =>
        simp only [bind, Except.bind, hkind] at h
        obtain rfl := Kind.name_of_ofName? hkind
        have hat' : cursor.path.resolve root = some (.obj entries) := hv ▸ hat
        exact (Schema.ofObject_ofKind kind).blames_of_decode ih hat hd (hdue.kind hat' hg) h
      | none =>
        simp only [bind, Except.bind, hkind] at h
        cases h
        exact ⟨cursor.value, hat, hdue, entries, hv, hg, Kind.not_mem_of_ofName? hkind⟩

theorem decodeDiagnosed_of_error {root : Json} {error : DecodeError}
    (h : Node.decode root = .error error) :
    Node.decodeDiagnosed root = .error (Diagnosed.of root error) := by
  rw [decodeDiagnosed, h]
  rfl

/-- A statement without its expression, in the second place of a program. -/
def incomplete : Json :=
  .obj [("type", .str "Program"),
    ("body", .arr [.obj [("type", .str "EmptyStatement")],
      .obj [("type", .str "ExpressionStatement")]])]

end Node

end SwiftScribe
