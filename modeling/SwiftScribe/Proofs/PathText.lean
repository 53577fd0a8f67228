import SwiftScribe.Proofs.Culprit
import SwiftScribe.Proofs.Formulas

/-!
# Path texts

A path is shown as a text such as `body[0].id`. Two paths may have one text, if a key holds a point or
a bracket. The errors of decoding name no such key: every step of theirs is an index or a key of the
schema, and the keys of the schema are plain.

* `Json.Path.readsBack_step`: a plain step can be read back from the front of a text.
* `Json.Path.text_injective`: **paths of plain steps have different texts.**
* `Due.plain`: what is due, is due at a path of plain steps.
* `Node.decode_error_path_unique`: the text of the path of a decode error tells the path.
-/

namespace SwiftScribe

namespace Json

/-! ## Texts of plain steps -/

/-- **A step that can be told in a path text:** an index, or a key that is not empty and holds neither
a point nor an opening bracket. -/
def Key.Plain : Key → Prop
  | .index _ => True
  | .name s => s.toList ≠ [] ∧ ∀ c ∈ s.toList, c ≠ '.' ∧ c ≠ '['

instance : DecidablePred Key.Plain
  | .index _ => .isTrue trivial
  | .name s =>
    -- by going through the letters of the name, not through all characters
    have := List.decidableBAll (fun c => c ≠ '.' ∧ c ≠ '[') s.toList
    inferInstanceAs (Decidable (s.toList ≠ [] ∧ ∀ c ∈ s.toList, c ≠ '.' ∧ c ≠ '['))

namespace Path

/-- Every step of the path is plain. -/
def Plain (path : Path) : Prop := ∀ key ∈ path, key.Plain

/-- The characters of a step that is not the first. -/
def stepLetters (key : Key) : List Char := (stepText key).toList

/-- The characters of a path, if something stands before it. -/
def letters (path : Path) : List Char := path.flatMap stepLetters

/-- What follows a step: another one, or nothing. -/
def FollowsStep (rest : List Char) : Prop := ∀ c ∈ rest.head?, c = '.' ∨ c = '['

theorem stepLetters_index (n : Nat) :
    stepLetters (.index n) = '[' :: (Nat.toDigits 10 n ++ [']']) := by
  simp [stepLetters, stepText]

theorem stepLetters_name (s : String) : stepLetters (.name s) = '.' :: s.toList := by
  simp [stepLetters, stepText]

theorem letters_cons (key : Key) (rest : Path) :
    letters (key :: rest) = stepLetters key ++ letters rest := rfl

theorem followsStep_letters (path : Path) : FollowsStep path.letters := by
  intro c hc
  cases path with
  | nil => cases hc
  | cons key rest =>
    cases key with
    | index n =>
      rw [letters_cons, stepLetters_index] at hc
      exact .inr (by simpa using hc.symm)
    | name s =>
      rw [letters_cons, stepLetters_name] at hc
      exact .inl (by simpa using hc.symm)

/-- The digits of an index tell the index. -/
theorem toDigits_injective {m n : Nat} (h : Nat.toDigits 10 m = Nat.toDigits 10 n) : m = n := by
  calc
    m = Nat.ofDigitChars 10 (Nat.toDigits 10 m) 0 := Nat.ofDigitChars_ten_toDigits.symm
    _ = Nat.ofDigitChars 10 (Nat.toDigits 10 n) 0 := by rw [h]
    _ = n := Nat.ofDigitChars_ten_toDigits

/-- **A plain step can be read back**: an index ends with its bracket, a key where the next step
begins. -/
theorem readsBack_step {key : Key} (hkey : key.Plain) :
    ReadsBack Key.Plain FollowsStep stepLetters key := by
  intro other hother rest more hrest hmore h
  cases key with
  | index m =>
    cases other with
    | index n =>
      rw [stepLetters_index, stepLetters_index] at h
      simp only [List.cons_append, List.append_assoc, List.nil_append, List.cons.injEq,
        true_and] at h
      have hdigits (k : Nat) : ∀ c ∈ Nat.toDigits 10 k, c.isDigit = true := by
        intro c hc
        exact Nat.isDigit_of_mem_toDigits (by decide) (by decide) hc
      have hclose (tail : List Char) : ∀ c ∈ (']' :: tail).head?, ¬ c.isDigit = true := by
        intro c hc
        have hbracket : c = ']' := by simpa using hc.symm
        rw [hbracket]
        decide
      obtain ⟨hsame, htail⟩ := front_unique (hdigits m) (hdigits n) (hclose rest) (hclose more) h
      exact ⟨congrArg Key.index (toDigits_injective hsame), by simpa using htail⟩
    | name s =>
      rw [stepLetters_index, stepLetters_name] at h
      exact absurd (List.cons.inj h).1 (by decide)
  | name s =>
    cases other with
    | index n =>
      rw [stepLetters_index, stepLetters_name] at h
      exact absurd (List.cons.inj h).1 (by decide)
    | name t =>
      rw [stepLetters_name, stepLetters_name] at h
      have htail := (List.cons.inj h).2
      have hend {tail : List Char} (hfollows : FollowsStep tail) :
          ∀ c ∈ tail.head?, ¬ (c ≠ '.' ∧ c ≠ '[') := by
        intro c hc hne
        rcases hfollows c hc with hpoint | hbracket
        · exact hne.1 hpoint
        · exact hne.2 hbracket
      obtain ⟨hsame, hbehind⟩ :=
        front_unique hkey.2 hother.2 (hend hrest) (hend hmore) htail
      exact ⟨congrArg Key.name (String.toList_inj.1 hsame), hbehind⟩

/-- Behind something else, plain steps can be told from their characters. -/
theorem letters_injective {path other : Path} (hpath : path.Plain) (hother : other.Plain)
    (h : path.letters = other.letters) : path = other := by
  have hne (key : Key) : stepLetters key ≠ [] := by
    cases key with
    | index n => simp [stepLetters_index]
    | name s => simp [stepLetters_name]
  induction path generalizing other with
  | nil =>
    cases other with
    | nil => rfl
    | cons key rest =>
      rw [letters_cons] at h
      exact absurd (List.append_eq_nil_iff.1 h.symm).1 (hne key)
  | cons key rest ih =>
    cases other with
    | nil =>
      rw [letters_cons] at h
      exact absurd (List.append_eq_nil_iff.1 h).1 (hne key)
    | cons key' rest' =>
      rw [letters_cons, letters_cons] at h
      obtain ⟨hkey, hrest⟩ := readsBack_step (hpath key List.mem_cons_self) key'
        (hother key' List.mem_cons_self) _ _ (followsStep_letters rest) (followsStep_letters rest') h
      have htail := ih (fun step hm => hpath step (List.mem_cons_of_mem _ hm))
        (fun step hm => hother step (List.mem_cons_of_mem _ hm)) hrest
      rw [hkey, htail]

/-! ## Texts of paths -/

theorem toList_join_stepText (path : Path) :
    (String.join (path.map stepText)).toList = path.letters := by
  rw [String.toList_join, List.flatMap_map]
  rfl

/-- The text of a path that starts with a key: the point before it is left out. -/
theorem toList_text_name (s : String) (rest : Path) :
    '.' :: (text (.name s :: rest)).toList = letters (.name s :: rest) := by
  rw [text, String.toList_append, toList_join_stepText, letters_cons, stepLetters_name]
  rfl

theorem toList_text_index (n : Nat) (rest : Path) :
    (text (.index n :: rest)).toList = letters (.index n :: rest) := by
  rw [text, String.toList_append, toList_join_stepText, letters_cons]
  rfl

/-- How the text of a path of plain steps begins: with the point of the root alone, a bracket, or a
character of a key. -/
theorem text_begins {path : Path} (h : path.Plain) :
    (path = [] ∧ path.text.toList = ['.']) ∨
      (∃ n rest, path = .index n :: rest ∧ path.text.toList.head? = some '[') ∨
      ∃ s rest c, path = .name s :: rest ∧ path.text.toList.head? = some c ∧ c ≠ '.' ∧ c ≠ '[' := by
  cases path with
  | nil => exact .inl ⟨rfl, rfl⟩
  | cons key rest =>
    cases key with
    | index n =>
      refine .inr (.inl ⟨n, rest, rfl, ?_⟩)
      rw [toList_text_index, letters_cons, stepLetters_index]
      rfl
    | name s =>
      have hs : s.toList ≠ [] ∧ ∀ c ∈ s.toList, c ≠ '.' ∧ c ≠ '[' := h _ List.mem_cons_self
      obtain ⟨c, tail, hc⟩ := List.exists_cons_of_ne_nil hs.1
      have hplain := hs.2 c (hc ▸ List.mem_cons_self)
      have htext := toList_text_name s rest
      rw [letters_cons, stepLetters_name, hc] at htext
      have hhead : (text (.name s :: rest)).toList = c :: (tail ++ letters rest) :=
        (List.cons.inj htext).2
      exact .inr (.inr ⟨s, rest, c, rfl, by rw [hhead]; rfl, hplain⟩)

/-- **Paths of plain steps have different texts.** -/
theorem text_injective {path other : Path} (hpath : path.Plain) (hother : other.Plain)
    (h : path.text = other.text) : path = other := by
  have hchars : path.text.toList = other.text.toList := congrArg String.toList h
  rcases text_begins hpath with ⟨rfl, hroot⟩ | ⟨m, rest, rfl, hfirst⟩ | ⟨s, rest, c, rfl, hfirst, hc⟩ <;>
    rcases text_begins hother with
      ⟨rfl, hroot'⟩ | ⟨n, more, rfl, hfirst'⟩ | ⟨t, more, d, rfl, hfirst', hd⟩
  · rfl
  · rw [← hchars, hroot] at hfirst'
    exact absurd hfirst' (by decide)
  · rw [← hchars, hroot] at hfirst'
    exact absurd (Option.some.inj hfirst').symm hd.1
  · rw [hchars, hroot'] at hfirst
    exact absurd hfirst (by decide)
  · refine letters_injective hpath hother ?_
    rw [← toList_text_index, ← toList_text_index, hchars]
  · rw [hchars, hfirst'] at hfirst
    exact absurd (Option.some.inj hfirst) hd.2
  · rw [hchars, hroot'] at hfirst
    exact absurd (Option.some.inj hfirst).symm hc.1
  · rw [hchars, hfirst'] at hfirst
    exact absurd (Option.some.inj hfirst).symm hc.2
  · refine letters_injective hpath hother ?_
    rw [← toList_text_name, ← toList_text_name, hchars]

/-- A key with a point in it would make two paths look alike. -/
example : text [.name "a.b"] = text [.name "a", .name "b"] := by decide

end Path

end Json

/-! ## Keys of the schema -/

mutual
/-- The keys that a schema asks for, in the objects that it describes down to the nodes inside. -/
def Schema.keysWithin : {α : Type} → Schema α → List String
  | _, .record fields => fields.keysWithin
  | _, .optional schema => schema.keysWithin
  | _, .orElse schema _ => schema.keysWithin
  | _, .list schema => schema.keysWithin
  | _, .map _ schema => schema.keysWithin
  | _, _ => []

/-- The keys of fields, and those that their values ask for. -/
def Fields.keysWithin : {α : Type} → Fields α → List String
  | _, .make _ => []
  | _, .field before key schema => before.keysWithin ++ key :: schema.keysWithin
end

/-- Plain keys only are asked for. -/
def Schema.PlainKeys {α : Type} (schema : Schema α) : Prop :=
  ∀ key ∈ schema.keysWithin, (Json.Key.name key).Plain

/-- **Every key of a node is plain.** -/
theorem Schema.plainKeys_ofKind (kind : Kind) : (Schema.ofKind kind).PlainKeys := by
  unfold Schema.PlainKeys
  cases kind <;> decide

/-- A field brings its key and the keys that its value asks for. -/
theorem Fields.Has.mem_keysWithin {α β : Type} {fields : Fields β} {key : String}
    {schema : Schema α} (h : fields.Has key schema) :
    key ∈ fields.keysWithin ∧ ∀ inner ∈ schema.keysWithin, inner ∈ fields.keysWithin := by
  induction h with
  | here before key schema =>
    refine ⟨?_, fun inner hm => ?_⟩
    · simp [Fields.keysWithin]
    · simp [Fields.keysWithin, hm]
  | before other last _ ih =>
    refine ⟨?_, fun inner hm => ?_⟩
    · simp [Fields.keysWithin, ih.1]
    · simp [Fields.keysWithin, ih.2 inner hm]

/-! ## Paths of decode errors -/

theorem Json.Path.Plain.join {path : Json.Path} (h : path.Plain) {key : Json.Key} (hkey : key.Plain) :
    (path.join key).Plain := by
  intro step hm
  rcases List.mem_append.1 hm with hpath | hlast
  · exact h step hpath
  · rw [List.mem_singleton.1 hlast]
    exact hkey

/-- **What is due, is due at a path of plain steps.** One step of the schema adds a key of its own or
an index, and asks for keys of its own only. -/
theorem Due.plain {root : Json} {α : Type} {path : Json.Path} {schema : Schema α}
    (h : Due root path schema) : path.Plain ∧ schema.PlainKeys := by
  induction h with
  | root => exact ⟨fun step hm => absurd hm List.not_mem_nil, fun key hm => absurd hm List.not_mem_nil⟩
  | type _ ih => exact ⟨ih.1.join (by decide), fun key hm => absurd hm List.not_mem_nil⟩
  | @kind _ _ kind _ _ _ ih => exact ⟨ih.1, Schema.plainKeys_ofKind kind⟩
  | field _ hf ih =>
    have hkeys := hf.mem_keysWithin
    exact ⟨ih.1.join (ih.2 _ hkeys.1), fun inner hm => ih.2 inner (hkeys.2 inner hm)⟩
  | item index _ ih => exact ⟨ih.1.join trivial, ih.2⟩
  | optional _ _ _ ih => exact ih
  | orElse _ _ _ ih => exact ih
  | map _ ih => exact ih

/-- A culprit is found at a path of plain steps. -/
theorem DecodeError.Culprit.plain {root value : Json} {error : DecodeError}
    (h : error.Culprit root value) : error.path.Plain := by
  cases error with
  | unknownKind name path =>
    obtain ⟨-, hdue, -⟩ := h
    exact hdue.plain.1
  | typeMismatch expected found path =>
    obtain ⟨-, -, -, -, α, schema, hdue, -⟩ := h
    exact hdue.plain.1
  | keyNotFound key path =>
    obtain ⟨parent, entries, -, -, -, -, α, schema, hdue, -⟩ := h
    exact hdue.plain.1
  | valueNotFound expected path =>
    obtain ⟨-, -, α, schema, hdue, -⟩ := h
    exact hdue.plain.1
  | unknownWord text title path =>
    obtain ⟨-, -, α, _, hdue, -⟩ := h
    exact hdue.plain.1

theorem Node.plain_of_decode_error {root : Json} {error : DecodeError}
    (h : Node.decode root = .error error) : error.path.Plain := by
  obtain ⟨value, hculprit⟩ := blames_of_decodeWithin root root.depth ⟨root, []⟩ error rfl .root
    (Nat.le_refl _) h
  exact hculprit.plain

/-- **The text of its path tells where a decode error arose**: two errors, of one value or of two,
whose paths look alike have the same path, step by step. -/
theorem Node.decode_error_path_unique {root other : Json} {error error' : DecodeError}
    (h : Node.decode root = .error error) (h' : Node.decode other = .error error')
    (htext : error.path.text = error'.path.text) : error.path = error'.path :=
  Json.Path.text_injective (plain_of_decode_error h) (plain_of_decode_error h') htext

/-- A statement whose expression is `null`, where `incomplete` has one without. -/
def Node.vacant : Json :=
  .obj [("type", .str "Program"),
    ("body", .arr [.obj [("type", .str "EmptyStatement")],
      .obj [("type", .str "ExpressionStatement"), ("expression", .null)]])]

theorem Node.decode_error_path_unique_vacant :
    let path : Json.Path := [.name "body", .index 1, .name "expression"]
    let error : DecodeError := .keyNotFound "expression" path
    let error' : DecodeError := .valueNotFound .object path
    Node.decode incomplete = .error error ∧ Node.decode vacant = .error error' ∧
      error.path.text = "body[1].expression" ∧ error'.path.text = "body[1].expression" ∧
      error.path = error'.path := by
  have h : Node.decode incomplete = .error (.keyNotFound "expression" _) := rfl
  have h' : Node.decode vacant = .error (.valueNotFound .object _) := rfl
  exact ⟨h, h', by decide, by decide, decode_error_path_unique h h' rfl⟩

end SwiftScribe
