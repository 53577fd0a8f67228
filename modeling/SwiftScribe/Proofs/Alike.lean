import Mathlib.Data.List.Forall2
import SwiftScribe.Node.Form
import SwiftScribe.Proofs.Culprit

/-!
# Values that a schema cannot tell apart

Two values may differ in ways that a schema does not see: in the order of entries, in entries that it
does not name, and in whether something that may be missing is missing or `null`. Decoding by the
schema then ends in the same way on both, be it with a value or with an error.

* `Json.Reordered`: values that differ in the order of entries only.
* `Schema.Alike`, `Json.Alike`: **values that a schema cannot tell apart**, at any depth.
* `Schema.agree_decode`: decoding by a schema agrees on such values, if that holds of the nodes
  inside.
-/

namespace SwiftScribe

namespace Json

/-! ## Values that differ in order -/

/-- **Values that differ in the order of entries only**, at any depth. Objects have distinct keys. -/
inductive Reordered : Json → Json → Prop
  | leaf (value : Json) (h : value.depth = 0) : Reordered value value
  | arr {items others : List Json} (hl : items.length = others.length)
    (h : ∀ (index : Nat) (item other : Json), items[index]? = some item →
      others[index]? = some other → Reordered item other) : Reordered (.arr items) (.arr others)
  | obj {entries others : Entries} (hd : (entries.map Prod.fst).Nodup)
    (hk : (entries.map Prod.fst).Perm (others.map Prod.fst))
    (h : ∀ (key : String) (value other : Json), entries.get? key = some value →
      others.get? key = some other → Reordered value other) : Reordered (.obj entries) (.obj others)

theorem Reordered.kind_eq {value other : Json} (h : value.Reordered other) :
    value.kind = other.kind := by
  cases h <;> rfl

theorem Entries.get?_cons (name : String) (value : Json) (rest : Entries) (key : String) :
    Entries.get? ((name, value) :: rest) key = if key = name then some value else rest.get? key := by
  unfold Entries.get?
  rw [List.lookup_cons]
  by_cases hk : key = name
  · simp [hk]
  · have : (key == name) = false := beq_false_of_ne hk
    simp [hk, this]

theorem Entries.get?_eq_none_iff {entries : Entries} {key : String} :
    entries.get? key = none ↔ key ∉ entries.map Prod.fst := by
  induction entries with
  | nil => simp [get?]
  | cons head rest ih =>
    obtain ⟨name, value⟩ := head
    rw [get?_cons, List.map_cons, List.mem_cons]
    by_cases hk : key = name
    · simp [hk]
    · simpa [hk] using ih

theorem Entries.get?_of_mem {entries : Entries} (hd : (entries.map Prod.fst).Nodup) {key : String}
    {value : Json} (h : (key, value) ∈ entries) : entries.get? key = some value := by
  induction entries with
  | nil => cases h
  | cons head rest ih =>
    obtain ⟨name, first⟩ := head
    rw [List.map_cons, List.nodup_cons] at hd
    rw [get?_cons]
    rcases List.mem_cons.1 h with hhead | hrest
    · cases hhead
      simp
    · have hne : key ≠ name := by
        rintro rfl
        exact hd.1 (List.mem_map.2 ⟨_, hrest, rfl⟩)
      rw [if_neg hne]
      exact ih hd.2 hrest

end Json

/-! ## Payloads -/

namespace Scalar

theorem sameItems_ofItems {items others : List Json} (hl : items.length = others.length)
    (h : ∀ (index : Nat) (item other : Json), items[index]? = some item →
      others[index]? = some other → (ofJson item).same (ofJson other) = true) :
    sameItems (ofItems items) (ofItems others) = true := by
  induction items generalizing others with
  | nil =>
    obtain rfl := List.length_eq_zero_iff.1 hl.symm
    rfl
  | cons item rest ih =>
    cases others with
    | nil => cases hl
    | cons other more =>
      have hfirst := h 0 item other rfl rfl
      have hrest := ih (Nat.succ.inj hl) fun index => h (index + 1)
      simp [ofItems, sameItems, hfirst, hrest]

theorem length_ofEntries (entries : Json.Entries) : (ofEntries entries).length = entries.length := by
  induction entries with
  | nil => rfl
  | cons head rest ih => simp [ofEntries, ih]

theorem lookup_ofEntries (entries : Json.Entries) (key : String) :
    (ofEntries entries).lookup key = (entries.get? key).map ofJson := by
  induction entries with
  | nil => rfl
  | cons head rest ih =>
    obtain ⟨name, value⟩ := head
    rw [ofEntries, List.lookup_cons, Json.Entries.get?_cons, ih]
    by_cases hk : key = name
    · simp [hk]
    · have : (key == name) = false := beq_false_of_ne hk
      simp [hk, this]

theorem sameEntries_ofEntries {entries others : Json.Entries}
    (h : ∀ key value, (key, value) ∈ entries →
      ∃ other, others.get? key = some other ∧ (ofJson value).same (ofJson other) = true) :
    sameEntries (ofEntries entries) (ofEntries others) = true := by
  induction entries with
  | nil => rfl
  | cons head rest ih =>
    obtain ⟨key, value⟩ := head
    obtain ⟨other, hother, hsame⟩ := h key value List.mem_cons_self
    have hrest := ih fun key value hm => h key value (List.mem_cons_of_mem _ hm)
    rw [ofEntries, sameEntries, lookup_ofEntries, hother]
    simp [hsame, hrest]

/-- **The order of entries does not matter for a payload.** -/
theorem same_ofJson {value other : Json} (h : value.Reordered other) :
    (ofJson value).same (ofJson other) = true := by
  induction h with
  | leaf value h =>
    cases value with
    | int n =>
      rw [ofJson, ofInt]
      split <;> simp [same, Double.same]
    | arr items => rw [Json.depth] at h; omega
    | obj entries => rw [Json.depth] at h; omega
    | _ => simp [ofJson, same, Double.same]
  | arr hl _ ih =>
    rw [ofJson, ofJson, same]
    exact sameItems_ofItems hl ih
  | @obj entries others hd hk _ ih =>
    have hlength : entries.length = others.length := by simpa using hk.length_eq
    rw [ofJson, ofJson, same, length_ofEntries, length_ofEntries, hlength]
    simp only [BEq.rfl, Bool.true_and]
    refine sameEntries_ofEntries fun key value hm => ?_
    have hvalue := Json.Entries.get?_of_mem hd hm
    cases hother : others.get? key with
    | none =>
      have hmem : key ∈ others.map Prod.fst := hk.mem_iff.1 (List.mem_map.2 ⟨_, hm, rfl⟩)
      exact absurd hmem (Json.Entries.get?_eq_none_iff.1 hother)
    | some other => exact ⟨other, rfl, ih key value other hvalue hother⟩

end Scalar

/-! ## What a schema does not see -/

/-- What may stand under a key of two objects: what is missing in one of them may be `null` in the
other, if it may be missing at all. -/
def AlikeEntry (mayMiss : Bool) (alike : Json → Json → Prop) : Option Json → Option Json → Prop
  | some value, some other => alike value other
  | some value, none => mayMiss ∧ value = .null
  | none, some other => mayMiss ∧ other = .null
  | none, none => True

theorem AlikeEntry.imp {mayMiss : Bool} {alike weaker : Json → Json → Prop}
    {value? other? : Option Json} (h : AlikeEntry mayMiss alike value? other?)
    (hw : ∀ value other, value? = some value → other? = some other → alike value other →
      weaker value other) : AlikeEntry mayMiss weaker value? other? := by
  cases value? with
  | some value =>
    cases other? with
    | some other => exact hw value other rfl rfl h
    | none => exact h
  | none =>
    cases other? with
    | some other => exact h
    | none => exact h

mutual
/-- **Values that a schema cannot tell apart**, if `child` says so of the nodes inside. Wherever there
is nothing of the shape that is due, only order may differ. -/
def Schema.Alike (child : Json → Json → Prop) : {α : Type} → Schema α → Json → Json → Prop
  | _, .node, value, other => child value other
  | _, .record fields, value, other =>
    value.Reordered other ∨
      ∃ entries others, value = .obj entries ∧ other = .obj others ∧
        fields.Alike child entries others
  | _, .optional schema, value, other => schema.Alike child value other
  | _, .orElse schema _, value, other => schema.Alike child value other
  | _, .list schema, value, other =>
    value.Reordered other ∨
      ∃ items others, value = .arr items ∧ other = .arr others ∧
        List.Forall₂ (schema.Alike child) items others
  | _, .map _ schema, value, other => schema.Alike child value other
  | _, _, value, other => value.Reordered other

/-- Objects that agree on the fields. Any other entries may differ. -/
def Fields.Alike (child : Json → Json → Prop) :
    {α : Type} → Fields α → Json.Entries → Json.Entries → Prop
  | _, .make _, _, _ => True
  | _, .field before key schema, entries, others =>
    before.Alike child entries others ∧
      AlikeEntry schema.absent?.isSome (schema.Alike child) (entries.get? key) (others.get? key)
end

/-- Values that stand for nodes and cannot be told apart by the schema of their kind, nor can the
nodes inside, some levels down. -/
def Json.AlikeWithin : Nat → Json → Json → Prop
  | 0, value, other => value.Reordered other
  | levels + 1, value, other =>
    value.Reordered other ∨
      ∃ (kind : SwiftScribe.Kind) (entries others : Entries),
        value = .obj entries ∧ other = .obj others ∧
        entries.get? "type" = some (.str kind.name) ∧ others.get? "type" = some (.str kind.name) ∧
        (Schema.ofKind kind).Alike (AlikeWithin levels) value other

/-- **Values that decoding cannot tell apart.** They differ only in the order of entries, in entries
that no field of the node or record has as its key, and in `null` for what may be missing. -/
def Json.Alike (value other : Json) : Prop := ∃ levels, value.AlikeWithin levels other

/-- What is asked of a relation between nodes: it holds of values that differ in order only, and never
of values of different kinds. -/
structure Blind (alike : Json → Json → Prop) : Prop where
  of_reordered : ∀ {value other : Json}, value.Reordered other → alike value other
  kind_eq : ∀ {value other : Json}, alike value other → value.kind = other.kind

theorem Json.blind_alikeWithin (levels : Nat) : Blind (Json.AlikeWithin levels) where
  of_reordered h := by
    cases levels with
    | zero => exact h
    | succ levels => exact .inl h
  kind_eq h := by
    cases levels with
    | zero => exact Reordered.kind_eq h
    | succ levels =>
      rcases h with h | ⟨_, _, _, rfl, rfl, -⟩
      · exact h.kind_eq
      · rfl

section Order

variable {alike : Json → Json → Prop}

/-- What differs in order only cannot be told apart, whatever is due. -/
theorem Schema.alike_of_reordered (hb : Blind alike) :
    {α : Type} → (schema : Schema α) → {value other : Json} → value.Reordered other →
      schema.Alike alike value other
  | _, .node, _, _, h => hb.of_reordered h
  | _, .text, _, _, h | _, .flag, _, _, h | _, .scalar, _, _, h | _, @Schema.word _ _, _, _, h => h
  | _, .record _, _, _, h => .inl h
  | _, .list _, _, _, h => .inl h
  | _, .optional schema, _, _, h => Schema.alike_of_reordered hb schema h
  | _, .orElse schema _, _, _, h => Schema.alike_of_reordered hb schema h
  | _, .map _ schema, _, _, h => Schema.alike_of_reordered hb schema h

theorem Fields.alike_of_reordered (hb : Blind alike) {entries others : Json.Entries}
    (h : (Json.obj entries).Reordered (.obj others)) :
    {α : Type} → (fields : Fields α) → fields.Alike alike entries others
  | _, .make _ => by simp only [Fields.Alike]
  | _, .field before key schema => by
    refine ⟨Fields.alike_of_reordered hb h before, ?_⟩
    cases h with
    | leaf value hleaf => rw [Json.depth] at hleaf; omega
    | obj hd hk hvalues =>
      have hsame : entries.get? key = none ↔ others.get? key = none := by
        rw [Json.Entries.get?_eq_none_iff, Json.Entries.get?_eq_none_iff, hk.mem_iff]
      cases hv : entries.get? key with
      | none => simp [hsame.1 hv, AlikeEntry]
      | some value =>
        cases ho : others.get? key with
        | none => simp [hsame.2 ho] at hv
        | some other => exact Schema.alike_of_reordered hb schema (hvalues key value other hv ho)

/-- Values of different kinds can be told apart. -/
theorem Schema.kind_eq_of_alike (hb : Blind alike) :
    {α : Type} → (schema : Schema α) → {value other : Json} → schema.Alike alike value other →
      value.kind = other.kind
  | _, .node, _, _, h => hb.kind_eq h
  | _, .text, _, _, h | _, .flag, _, _, h | _, .scalar, _, _, h | _, @Schema.word _ _, _, _, h =>
    Json.Reordered.kind_eq h
  | _, .record _, _, _, h => by
    rcases h with h | ⟨_, _, rfl, rfl, -⟩
    · exact h.kind_eq
    · rfl
  | _, .list _, _, _, h => by
    rcases h with h | ⟨_, _, rfl, rfl, -⟩
    · exact h.kind_eq
    · rfl
  | _, .optional schema, _, _, h => Schema.kind_eq_of_alike hb schema h
  | _, .orElse schema _, _, _, h => Schema.kind_eq_of_alike hb schema h
  | _, .map _ schema, _, _, h => Schema.kind_eq_of_alike hb schema h

theorem Schema.fields_of_alike_record (hb : Blind alike) {α : Type} {fields : Fields α}
    {value other : Json} (h : (Schema.record fields).Alike alike value other) :
    ∀ entries others, value = .obj entries → other = .obj others →
      fields.Alike alike entries others := by
  rintro entries others rfl rfl
  rcases h with h | ⟨_, _, ⟨⟩, ⟨⟩, h⟩
  · exact Fields.alike_of_reordered hb h fields
  · exact h

theorem Schema.forall₂_of_alike_list (hb : Blind alike) {α : Type} {schema : Schema α}
    {items others : List Json} (h : (Schema.list schema).Alike alike (.arr items) (.arr others)) :
    List.Forall₂ (schema.Alike alike) items others := by
  rcases h with h | ⟨_, _, ⟨⟩, ⟨⟩, h⟩
  · cases h with
    | leaf value hleaf => rw [Json.depth] at hleaf; omega
    | arr hl hitems =>
      rw [List.forall₂_iff_get]
      refine ⟨hl, fun index hi ho => ?_⟩
      have hitem := hitems index _ _ (List.getElem?_eq_getElem hi) (List.getElem?_eq_getElem ho)
      exact Schema.alike_of_reordered hb schema hitem
  · exact h

end Order

/-! ## The same results -/

mutual
/-- **Values made by a schema that are the same**, literals being compared as payloads. -/
def Schema.Same : {α : Type} → Schema α → α → α → Prop
  | _, .scalar, made, other => made.same other = true
  | _, .node, made, other => made.same other = true
  | _, .record fields, made, other => fields.Same fun a b => a = made ∧ b = other
  | _, .optional schema, made, other => Option.Rel schema.Same made other
  | _, .orElse schema _, made, other => made = other ∨ schema.Same made other
  | _, .list schema, made, other => List.Forall₂ schema.Same made other
  | _, .map f schema, made, other => ∃ a b, schema.Same a b ∧ f a = made ∧ f b = other
  | _, _, made, other => made = other

/-- Two values that pass a test are made of fields that are the same. -/
def Fields.Same : {α : Type} → Fields α → (α → α → Prop) → Prop
  | _, .make value, passes => passes value value
  | _, .field before _ schema, passes =>
    before.Same fun f g => ∃ a b, schema.Same a b ∧ passes (f a) (g b)
end

/-- **Two decodings end in the same way:** with results that are the same, or with one error. -/
inductive Agree {α : Type} (same : α → α → Prop) :
    Except DecodeError α → Except DecodeError α → Prop
  | ok {made other : α} (h : same made other) : Agree same (.ok made) (.ok other)
  | error (error : DecodeError) : Agree same (.error error) (.error error)

namespace Agree

variable {α β : Type} {same : α → α → Prop} {next : β → β → Prop}
  {first second : Except DecodeError α}

theorem bind (h : Agree same first second) {f g : α → Except DecodeError β}
    (hfg : ∀ a b, same a b → Agree next (f a) (g b)) : Agree next (first >>= f) (second >>= g) := by
  cases h with
  | ok h => exact hfg _ _ h
  | error e => exact .error e

theorem map (h : Agree same first second) {f g : α → β} (hfg : ∀ a b, same a b → next (f a) (g b)) :
    Agree next (first.map f) (second.map g) := by
  cases h with
  | ok h => exact .ok (hfg _ _ h)
  | error e => exact .error e

theorem imp {weaker : α → α → Prop} (h : Agree same first second)
    (hw : ∀ a b, same a b → weaker a b) : Agree weaker first second := by
  cases h with
  | ok h => exact .ok (hw _ _ h)
  | error e => exact .error e

theorem of_eq (h : first = second) (hs : ∀ a, same a a) : Agree same first second := by
  subst h
  cases first with
  | ok a => exact .ok (hs a)
  | error e => exact .error e

end Agree

namespace Cursor

variable {value other : Json} {path : Json.Path}

theorem mismatch_congr (h : value.kind = other.kind) (expected : Json.Kind) :
    mismatch ⟨value, path⟩ expected = mismatch ⟨other, path⟩ expected := by
  simp only [mismatch, h]

theorem text_congr (h : value.Reordered other) : text ⟨value, path⟩ = text ⟨other, path⟩ := by
  cases h <;> rfl

theorem flag_congr (h : value.Reordered other) : flag ⟨value, path⟩ = flag ⟨other, path⟩ := by
  cases h <;> rfl

theorem word_congr (h : value.Reordered other) {α : Type} [Word α] :
    (word ⟨value, path⟩ : Except DecodeError α) = word ⟨other, path⟩ := by
  simp only [word, text_congr h]

theorem items_of_not_array {α : Type} (hne : value.kind ≠ .array)
    {decode : Cursor → Except DecodeError α} :
    items ⟨value, path⟩ decode = .error (mismatch ⟨value, path⟩ .array) := by
  cases value with
  | arr items => exact absurd rfl hne
  | _ => rfl

/-- Items are decoded one by one, and the first that fails decides. -/
theorem agree_itemsFrom {α : Type} {alike : Json → Json → Prop} {same : α → α → Prop}
    {decode decode' : Cursor → Except DecodeError α} {items others : List Json}
    (h : List.Forall₂ alike items others) (hd : ∀ item other path, item ∈ items → other ∈ others →
      alike item other → Agree same (decode ⟨item, path⟩) (decode' ⟨other, path⟩)) (start : Nat) :
    Agree (List.Forall₂ same) (itemsFrom path decode start items)
      (itemsFrom path decode' start others) := by
  induction h generalizing start with
  | nil => exact .ok .nil
  | cons hhead _ ih =>
    refine (hd _ _ _ List.mem_cons_self List.mem_cons_self hhead).bind fun a b hab => ?_
    have hrest := ih (fun item other path hi ho =>
      hd item other path (List.mem_cons_of_mem _ hi) (List.mem_cons_of_mem _ ho)) (start + 1)
    exact hrest.bind fun as bs h => .ok (.cons hab h)

end Cursor

/-! ## Decoding by a schema -/

section Decoding

variable {alike : Json → Json → Prop} {child child' : Cursor → Except DecodeError Node}
  {depth depth' : Nat}

theorem Schema.decode_null {α : Type} {schema : Schema α} {default : α}
    (h : schema.absent? = some default) (path : Json.Path) :
    schema.decode child ⟨.null, path⟩ = .ok default := by
  cases schema with
  | optional schema => cases h; simp [Schema.decode, Json.kind]
  | orElse schema other => cases h; simp [Schema.decode, Json.kind]
  | _ => cases h

theorem Schema.same_absent {α : Type} {schema : Schema α} {default : α}
    (h : schema.absent? = some default) : schema.Same default default := by
  cases schema with
  | optional schema => cases h; exact .none
  | orElse schema other => cases h; exact .inl rfl
  | _ => cases h

theorem Cursor.field_of_entry {α : Type} {entries : Json.Entries} {key : String} {entry : Json}
    (hg : entries.get? key = some entry) (path : Json.Path) (absent? : Option α)
    (decode : Cursor → Except DecodeError α) :
    field ⟨.obj entries, path⟩ key absent? decode = decode ⟨entry, path.join (.name key)⟩ := by
  simp only [field, hg]

/-- A missing entry and `null` come to the same, for what may be missing. -/
theorem Cursor.field_of_default {α : Type} {schema : Schema α} {default : α}
    (hd : schema.absent? = some default) {entries : Json.Entries} {key : String}
    (hg : entries.get? key = none ∨ entries.get? key = some .null) (path : Json.Path) :
    field ⟨.obj entries, path⟩ key schema.absent? (schema.decode child) = .ok default := by
  rcases hg with hg | hg
  · simp only [field, hg, hd]
  · rw [field_of_entry hg, Schema.decode_null hd]

theorem Cursor.field_of_not_object {α : Type} {value : Json} (hne : value.kind ≠ .object)
    (path : Json.Path) (key : String) (absent? : Option α)
    (decode : Cursor → Except DecodeError α) :
    field ⟨value, path⟩ key absent? decode = .error (mismatch ⟨value, path⟩ .object) := by
  cases value with
  | obj entries => exact absurd rfl hne
  | _ => rfl

/-- **A field agrees on objects whose entries for it are alike.** -/
theorem Cursor.agree_field {α : Type} {schema : Schema α} {value other : Json} {path : Json.Path}
    {key : String} (hk : value.kind = other.kind)
    (h : ∀ entries others, value = .obj entries → other = .obj others →
      AlikeEntry schema.absent?.isSome (fun entry entry' =>
        Agree schema.Same (schema.decode child ⟨entry, path.join (.name key)⟩)
          (schema.decode child' ⟨entry', path.join (.name key)⟩))
        (Json.Entries.get? entries key) (Json.Entries.get? others key)) :
    Agree schema.Same (field ⟨value, path⟩ key schema.absent? (schema.decode child))
      (field ⟨other, path⟩ key schema.absent? (schema.decode child')) := by
  by_cases hobj : value.kind = .object
  · obtain ⟨entries, rfl⟩ := Json.eq_obj_of_kind hobj
    obtain ⟨others, rfl⟩ := Json.eq_obj_of_kind (hk.symm.trans hobj)
    have hentry := h entries others rfl rfl
    -- both sides come to the default where an entry is missing on one side at least
    have hdefault {default : α} (hd : schema.absent? = some default)
        (hv : Json.Entries.get? entries key = none ∨ Json.Entries.get? entries key = some .null)
        (ho : Json.Entries.get? others key = none ∨ Json.Entries.get? others key = some .null) :
        Agree schema.Same (field ⟨.obj entries, path⟩ key schema.absent? (schema.decode child))
          (field ⟨.obj others, path⟩ key schema.absent? (schema.decode child')) := by
      rw [field_of_default hd hv, field_of_default hd ho]
      exact .ok (Schema.same_absent hd)
    cases hv : Json.Entries.get? entries key with
    | some entry =>
      cases ho : Json.Entries.get? others key with
      | some entry' =>
        rw [hv, ho] at hentry
        rw [field_of_entry hv, field_of_entry ho]
        exact hentry
      | none =>
        rw [hv, ho] at hentry
        obtain ⟨hmiss, rfl⟩ := hentry
        obtain ⟨default, hd⟩ := Option.isSome_iff_exists.1 hmiss
        exact hdefault hd (.inr hv) (.inl ho)
    | none =>
      cases ho : Json.Entries.get? others key with
      | some entry' =>
        rw [hv, ho] at hentry
        obtain ⟨hmiss, rfl⟩ := hentry
        obtain ⟨default, hd⟩ := Option.isSome_iff_exists.1 hmiss
        exact hdefault hd (.inl hv) (.inr ho)
      | none =>
        cases hd : schema.absent? with
        | some default => rw [← hd]; exact hdefault hd (.inl hv) (.inl ho)
        | none => simpa only [field, hv, ho] using .error _
  · rw [field_of_not_object hobj, field_of_not_object (hk ▸ hobj), mismatch_congr hk]
    exact .error _

/-- Nodes up to some depth that are alike are decoded alike. -/
def AgreeWithin (alike : Json → Json → Prop) (child child' : Cursor → Except DecodeError Node)
    (depth depth' : Nat) : Prop :=
  ∀ (value other : Json) (path : Json.Path), alike value other → value.depth ≤ depth →
    other.depth ≤ depth' → Agree (·.same · = true) (child ⟨value, path⟩) (child' ⟨other, path⟩)

-- The fields of an object may be one level deeper than the nodes inside, as for the culprits of errors.
mutual
/-- **Decoding by a schema agrees on values that it cannot tell apart.** -/
theorem Schema.agree_decode (hb : Blind alike)
    (hchild : AgreeWithin alike child child' depth depth') :
    {α : Type} → (schema : Schema α) → {value other : Json} → {path : Json.Path} →
      schema.Alike alike value other → value.depth ≤ depth → other.depth ≤ depth' →
      Agree schema.Same (schema.decode child ⟨value, path⟩) (schema.decode child' ⟨other, path⟩)
  | _, .text, _, _, _, h, _, _ => .of_eq (Cursor.text_congr h) fun _ => rfl
  | _, .flag, _, _, _, h, _, _ => .of_eq (Cursor.flag_congr h) fun _ => rfl
  | _, .scalar, _, _, _, h, _, _ => .ok (Scalar.same_ofJson h)
  | _, @Schema.word _ _, _, _, _, h, _, _ => .of_eq (Cursor.word_congr h) fun _ => rfl
  | _, .node, value, other, path, h, hd, hd' => hchild value other path h hd hd'
  | _, .record fields, value, other, path, h, hd, hd' =>
    (Fields.agree_decode hb hchild fields (Schema.kind_eq_of_alike hb _ h)
      (Schema.fields_of_alike_record hb h) (Nat.le_succ_of_le hd) (Nat.le_succ_of_le hd')).imp
      fun _ _ hab => hab _ ⟨rfl, rfl⟩
  | _, .optional schema, value, other, path, h, hd, hd' => by
    have hk := Schema.kind_eq_of_alike hb schema h
    rw [Schema.decode, Schema.decode]
    by_cases hnull : value.kind = .null
    · rw [if_pos hnull, if_pos (hk ▸ hnull)]
      exact .ok .none
    · rw [if_neg hnull, if_neg (hk ▸ hnull)]
      exact (Schema.agree_decode hb hchild schema h hd hd').map fun _ _ hab => .some hab
  | _, .orElse schema default, value, other, path, h, hd, hd' => by
    have hk := Schema.kind_eq_of_alike hb schema h
    rw [Schema.decode, Schema.decode]
    by_cases hnull : value.kind = .null
    · rw [if_pos hnull, if_pos (hk ▸ hnull)]
      exact .ok (.inl rfl)
    · rw [if_neg hnull, if_neg (hk ▸ hnull)]
      exact (Schema.agree_decode hb hchild schema h hd hd').imp fun _ _ hab => .inr hab
  | _, .list schema, value, other, path, h, hd, hd' => by
    have hk := Schema.kind_eq_of_alike hb _ h
    rw [Schema.decode, Schema.decode]
    by_cases harr : value.kind = .array
    · obtain ⟨items, rfl⟩ := Json.eq_arr_of_kind harr
      obtain ⟨others, rfl⟩ := Json.eq_arr_of_kind (hk.symm.trans harr)
      rw [Json.depth] at hd hd'
      refine Cursor.agree_itemsFrom (Schema.forall₂_of_alike_list hb h) ?_ 0
      intro item other path hi ho hitem
      have := Json.depth_of_mem hi
      have := Json.depth_of_mem ho
      exact Schema.agree_decode hb hchild schema hitem (by omega) (by omega)
    · rw [Cursor.items_of_not_array harr, Cursor.items_of_not_array (hk ▸ harr),
        Cursor.mismatch_congr hk]
      exact .error _
  | _, .map f schema, _, _, _, h, hd, hd' => by
    rw [Schema.decode, Schema.decode]
    exact (Schema.agree_decode hb hchild schema h hd hd').map fun a b hab => ⟨a, b, hab, rfl, rfl⟩

theorem Fields.agree_decode (hb : Blind alike)
    (hchild : AgreeWithin alike child child' depth depth') :
    {α : Type} → (fields : Fields α) → {value other : Json} → {path : Json.Path} →
      value.kind = other.kind →
      (∀ entries others, value = .obj entries → other = .obj others →
        fields.Alike alike entries others) →
      value.depth ≤ depth + 1 → other.depth ≤ depth' + 1 →
      Agree (fun a b => ∀ passes : α → α → Prop, passes a b → fields.Same passes)
        (fields.decode child ⟨value, path⟩) (fields.decode child' ⟨other, path⟩)
  | _, .make value, _, _, _, _, _, _, _ => .ok fun passes h => h
  | _, .field before key schema, value, other, path, hk, h, hd, hd' => by
    rw [Fields.decode, Fields.decode]
    refine (Fields.agree_decode hb hchild before hk (fun _ _ hv ho => (h _ _ hv ho).1) hd hd').bind
      fun f g hfg => ?_
    have hfield : Agree schema.Same
        (Cursor.field ⟨value, path⟩ key schema.absent? (schema.decode child))
        (Cursor.field ⟨other, path⟩ key schema.absent? (schema.decode child')) := by
      refine Cursor.agree_field hk ?_
      rintro entries others rfl rfl
      refine (h entries others rfl rfl).2.imp fun entry entry' hg hg' halike => ?_
      have := Json.depth_of_get? hg
      have := Json.depth_of_get? hg'
      rw [Json.depth] at hd hd'
      exact Schema.agree_decode hb hchild schema halike (by omega) (by omega)
    exact hfield.bind fun a b hab => .ok fun passes hp => hfg _ ⟨a, b, hab, hp⟩
end

theorem Schema.OfObject.agree_decode (hb : Blind alike)
    (hchild : AgreeWithin alike child child' depth depth') {value other : Json} {path : Json.Path}
    (hd : value.depth ≤ depth + 1) (hd' : other.depth ≤ depth' + 1) {α : Type} {schema : Schema α}
    (ho : schema.OfObject) (h : schema.Alike alike value other) :
    Agree schema.Same (schema.decode child ⟨value, path⟩) (schema.decode child' ⟨other, path⟩) := by
  induction ho with
  | record fields =>
    refine Agree.imp (Fields.agree_decode hb hchild fields (Schema.kind_eq_of_alike hb _ h)
      (Schema.fields_of_alike_record hb h) hd hd') fun _ _ hab => hab _ ⟨rfl, rfl⟩
  | map f _ ih =>
    rw [Schema.decode, Schema.decode]
    exact (ih h).map fun a b hab => ⟨a, b, hab, rfl, rfl⟩

end Decoding

end SwiftScribe
