import SwiftScribe.Hint.Reader
import SwiftScribe.Proofs.Merging

/-!
# Which hint files are accepted

A hint file may hold any JSON value. It is accepted if that value is an object in which nothing, at
any depth, is a number or an array; what a later entry of the same name replaces is looked at as well.

* `Hint.ofJson?_isSome_iff`: a value stands for a hint exactly if all its parts are hint-like.
* `Hint.shapeAt?_ofJson?`: **a hint has at each path what the value has there**, where the last entry of
  a name counts.
* `HintTable.addEntries_cases`: **all that adding entries does**: the first entry with a part of another
  kind is the error.
* `HintTable.read_iff_hintLike`: which texts are read as a table, what the table holds, and where the
  error is of those that are not.
-/

namespace SwiftScribe

namespace Json

/-! ## Parts of a value -/

/-- **A value is part of another one** at some depth, or is that value. Every entry of an object
counts, also if a later one has the same name. -/
inductive Part : Json → Json → Prop
  | whole (value : Json) : Part value value
  | item {part item : Json} {items : List Json} (member : item ∈ items) (h : Part part item) :
    Part part (.arr items)
  | entry {part : Json} {entry : String × Json} {entries : List (String × Json)}
    (member : entry ∈ entries) (h : Part part entry.2) : Part part (.obj entries)

/-- **Every part of a value is of a kind that hints have.** -/
def HintLike (value : Json) : Prop :=
  ∀ part, Part part value → part.kind ∈ [.null, .boolean, .string, .object]

/-- **Some part of a value is a number or an array.** -/
def Spoiled (value : Json) : Prop := ∃ part, Part part value ∧ part.kind ∈ [.number, .array]

theorem spoiled_iff {value : Json} : value.Spoiled ↔ ¬ value.HintLike := by
  have hkind : ∀ kind : Kind, kind ∈ [.number, .array] ↔
      kind ∉ [Kind.null, .boolean, .string, .object] := by
    intro kind
    cases kind <;> decide
  simp only [Spoiled, HintLike, hkind, not_forall, exists_prop]

theorem HintLike.kind_mem {value : Json} (h : value.HintLike) :
    value.kind ∈ [.null, .boolean, .string, .object] := h value (.whole value)

theorem hintLike_null : HintLike .null := by
  rintro part ⟨⟩
  decide

theorem hintLike_bool (value : Bool) : HintLike (.bool value) := by
  rintro part ⟨⟩
  simp [kind]

theorem hintLike_str (value : String) : HintLike (.str value) := by
  rintro part ⟨⟩
  simp [kind]

theorem hintLike_obj_iff {entries : List (String × Json)} :
    HintLike (.obj entries) ↔ ∀ entry ∈ entries, entry.2.HintLike := by
  constructor
  · exact fun h entry hm part hp => h part (.entry hm hp)
  · rintro h part (_ | _ | ⟨hm, hp⟩)
    · simp [kind]
    · exact h _ hm part hp

/-! ## The last value of a name -/

/-- The value under a name, where the last entry of it counts. -/
def Entries.last? (entries : Entries) (name : String) : Option Json :=
  Entries.get? entries.reverse name

theorem Entries.last?_cons (key : String) (value : Json) (rest : Entries) (name : String) :
    last? ((key, value) :: rest) name =
      (last? rest name).or (if name = key then some value else none) := by
  simp only [last?, get?, List.reverse_cons, List.lookup_append, List.lookup_cons, List.lookup_nil]
  by_cases h : name = key
  · simp [h]
  · simp [h, beq_false_of_ne h]

/-- **The value at the end of a path of names**, where the last entry of each counts. -/
def lastAt? : TypePath → Json → Option Json
  | [], value => some value
  | name :: rest, .obj entries => (Entries.last? entries name).bind (lastAt? rest)
  | _ :: _, _ => none

/-- The shape of the hint that a value stands for, if it is of a kind that hints have. -/
def hintShape? : Json → Option Hint.Shape
  | .null => some .unknown
  | .bool value => some (.leaf (.flag value))
  | .str value => some (.leaf (.name value))
  | .obj _ => some .table
  | _ => none

end Json

namespace Hint

/-! ## Values as hints -/

mutual
/-- **A value stands for a hint exactly if all its parts are of a kind that hints have.** -/
theorem ofJson?_isSome_iff : (value : Json) → ((ofJson? value).isSome ↔ value.HintLike)
  | .null => by simp [ofJson?, Json.hintLike_null]
  | .bool value => by simp [ofJson?, Json.hintLike_bool]
  | .str value => by simp [ofJson?, Json.hintLike_str]
  | .int value => iff_of_false (by simp [ofJson?]) fun h => absurd h.kind_mem (by simp [Json.kind])
  | .double value => iff_of_false (by simp [ofJson?]) fun h => absurd h.kind_mem (by simp [Json.kind])
  | .arr items => iff_of_false (by simp [ofJson?]) fun h => absurd h.kind_mem (by simp [Json.kind])
  | .obj entries => by
    rw [Json.hintLike_obj_iff, ← ofEntries?_isSome_iff entries [], ofJson?, Option.isSome_map]

theorem ofEntries?_isSome_iff : (entries : List (String × Json)) → (done : Entries) →
    ((ofEntries? done entries).isSome ↔ ∀ entry ∈ entries, entry.2.HintLike)
  | [], done => by simp [ofEntries?]
  | (name, value) :: rest, done => by
    rw [List.forall_mem_cons, ← ofJson?_isSome_iff value, ofEntries?]
    cases ofJson? value with
    | none => simp
    | some hint => simpa using ofEntries?_isSome_iff rest (done.set name hint)
end

/-- Each name of a table has the hint of its last value. -/
theorem get?_ofEntries? {entries : List (String × Json)} {done result : Entries}
    (h : ofEntries? done entries = some result) (name : String) :
    (∃ value hint, Json.Entries.last? entries name = some value ∧ ofJson? value = some hint ∧
        result.get? name = some hint) ∨
      (Json.Entries.last? entries name = none ∧ result.get? name = done.get? name) := by
  induction entries generalizing done with
  | nil =>
    cases h
    exact .inr ⟨rfl, rfl⟩
  | cons head rest ih =>
    obtain ⟨key, value⟩ := head
    obtain ⟨hint, hhint, h⟩ := Option.bind_eq_some_iff.1 h
    rw [Json.Entries.last?_cons]
    rcases ih h with ⟨later, found, hlast, hfound, hget⟩ | ⟨hlast, hget⟩
    · exact .inl ⟨later, found, by rw [hlast]; rfl, hfound, hget⟩
    · -- the name does not come again, so this entry decides
      rw [Entries.get?_set] at hget
      rw [hlast, hget]
      by_cases hname : name = key
      · exact .inl ⟨value, hint, by simp [hname], hhint, by simp [hname]⟩
      · exact .inr ⟨by simp [hname], by simp [hname]⟩

/-- **A hint has at each path what the value has there.** -/
theorem shapeAt?_ofJson? {value : Json} {hint : Hint} (h : ofJson? value = some hint)
    (path : TypePath) : hint.shapeAt? path = (value.lastAt? path).bind Json.hintShape? := by
  induction path generalizing value hint with
  | nil =>
    cases value with
    | obj entries =>
      obtain ⟨result, -, rfl⟩ := Option.map_eq_some_iff.1 h
      rfl
    | _ => cases h <;> rfl
  | cons name rest ih =>
    cases value with
    | obj entries =>
      obtain ⟨result, hresult, rfl⟩ := Option.map_eq_some_iff.1 h
      have hbelow : (Hint.table result).shapeAt? (name :: rest) =
          Entries.shapeAt? result (name :: rest) := rfl
      rw [hbelow, Entries.shapeAt?_cons, Json.lastAt?]
      rcases get?_ofEntries? hresult name with ⟨later, found, hlast, hfound, hget⟩ | ⟨hlast, hget⟩
      · rw [hlast, hget]
        exact ih hfound
      · rw [hlast, hget]
        rfl
    | _ => cases h <;> rfl

end Hint

namespace HintTable

/-! ## Values as tables -/

/-- **All that adding entries does**: the table is that of all the hints, or the first entry with a part
of another kind is the error. -/
theorem addEntries_cases (done : HintTable) (entries : List (String × Json)) :
    ((∀ entry ∈ entries, entry.2.HintLike) ∧
        ∃ table, addEntries done entries = .ok table ∧
          Hint.ofEntries? done.entries entries = some table.entries) ∨
      ∃ before name bad after, entries = before ++ (name, bad) :: after ∧
        (∀ entry ∈ before, entry.2.HintLike) ∧ ¬ bad.HintLike ∧
        addEntries done entries = .error (.badEntry name) := by
  induction entries generalizing done with
  | nil => exact .inl ⟨by simp, done, rfl, rfl⟩
  | cons head rest ih =>
    obtain ⟨name, value⟩ := head
    rw [addEntries, Hint.ofEntries?]
    split
    · rename_i hint hhint
      have hlike : value.HintLike := (Hint.ofJson?_isSome_iff value).1 (by rw [hhint]; rfl)
      rcases ih ⟨done.entries.set name hint, _⟩ with
        ⟨hrest, table, htable, hentries⟩ | ⟨before, other, bad, after, rfl, hbefore, hbad, herror⟩
      · refine .inl ⟨List.forall_mem_cons.2 ⟨hlike, hrest⟩, table, htable, ?_⟩
        rw [hhint]
        exact hentries
      · exact .inr ⟨(name, value) :: before, other, bad, after, rfl,
          List.forall_mem_cons.2 ⟨hlike, hbefore⟩, hbad, herror⟩
    · rename_i hnone
      refine .inr ⟨[], name, value, rest, rfl, by simp, fun hlike => ?_, rfl⟩
      rw [← Hint.ofJson?_isSome_iff, hnone] at hlike
      cases hlike

/-- A table has at each path what its value has there. -/
theorem shapeAt?_ofJson {value : Json} {table : HintTable} (h : ofJson value = .ok table)
    {path : TypePath} (hp : path ≠ []) :
    table.shapeAt? path = (value.lastAt? path).bind Json.hintShape? := by
  cases value with
  | obj entries =>
    rcases addEntries_cases .empty entries with ⟨-, found, hfound, hentries⟩ | ⟨_, _, _, _, _, _, _, he⟩
    · cases hfound.symm.trans h
      have htable : Hint.ofJson? (.obj entries) = some (.table table.entries) := by
        rw [Hint.ofJson?, show Hint.ofEntries? [] entries = some table.entries from hentries]
        rfl
      rw [← Hint.shapeAt?_ofJson? htable]
      obtain ⟨name, rest, rfl⟩ := List.exists_cons_of_ne_nil hp
      rfl
    · cases he.symm.trans h
  | _ => cases h

/-- **Reading a text whose first value is given.** -/
theorem read_of_readFirst {text : String} {value : Json} {rest : List Char}
    (h : Json.readFirst text = .ok (value, rest)) :
    read text = (ofJson value).mapError .misshapen := by
  rw [read, h]

/-- **Which texts are read as a table of hints**, of those that start with a JSON value. The value has
to be an object without a number or an array at any depth. The table then has at each path what the
value has there, the last entry of a name counting. Of any other object the first entry with a number or
an array in it is the error, and of any other value the whole. -/
theorem read_iff_hintLike {text : String} {value : Json} {rest : List Char}
    (h : Json.readFirst text = .ok (value, rest)) :
    ((∃ table, read text = .ok table) ↔ value.kind = .object ∧ value.HintLike) ∧
      (∀ table, read text = .ok table → ∀ path, path ≠ [] →
        table.shapeAt? path = (value.lastAt? path).bind Json.hintShape?) ∧
      (∀ entries, value = .obj entries → ¬ value.HintLike →
        ∃ before name bad after error, entries = before ++ (name, bad) :: after ∧
          (∀ entry ∈ before, ¬ entry.2.Spoiled) ∧ bad.Spoiled ∧
          read text = .error (.misshapen error) ∧ error.place = name) ∧
      (value.kind ≠ .object →
        ∃ error, read text = .error (.misshapen error) ∧ error.place = ".") := by
  rw [read_of_readFirst h]
  refine ⟨?_, fun table htable path hp => ?_, ?_, fun hkind => ?_⟩
  · cases value with
    | obj entries =>
      rw [Json.hintLike_obj_iff, ofJson]
      rcases addEntries_cases .empty entries with
        ⟨hlike, table, htable, -⟩ | ⟨before, name, bad, after, rfl, -, hbad, herror⟩
      · rw [htable]
        exact iff_of_true ⟨table, rfl⟩ ⟨rfl, hlike⟩
      · rw [herror]
        refine iff_of_false (by rintro ⟨table, ⟨⟩⟩) fun hlike => hbad ?_
        exact hlike.2 (name, bad) (by simp)
    | _ => exact iff_of_false (by rintro ⟨table, ⟨⟩⟩) (by rintro ⟨⟨⟩, -⟩)
  · cases hof : ofJson value with
    | error error =>
      rw [hof] at htable
      cases htable
    | ok found =>
      rw [hof] at htable
      cases htable
      exact shapeAt?_ofJson hof hp
  · rintro entries rfl hspoiled
    rw [Json.hintLike_obj_iff] at hspoiled
    rcases addEntries_cases .empty entries with
      ⟨hlike, -⟩ | ⟨before, name, bad, after, rfl, hbefore, hbad, herror⟩
    · exact absurd hlike hspoiled
    · refine ⟨before, name, bad, after, .badEntry name, rfl, fun entry hm => ?_,
        Json.spoiled_iff.2 hbad, ?_, rfl⟩
      · rw [Json.spoiled_iff, not_not]
        exact hbefore entry hm
      · rw [ofJson, herror]
        rfl
  · cases value with
    | obj entries => exact absurd rfl hkind
    | _ => exact ⟨.notTable _, rfl, rfl⟩

/-- The last entry of a name counts for the table, and every entry for whether there is one. -/
theorem read_iff_hintLike_replaced :
    (∃ table, read "\x7b\"a\": \x7b\"x\": null\x7d, \"a\": true\x7d" = .ok table ∧
        table.shapeAt? ["a"] = some (.leaf (.flag true)) ∧ table.shapeAt? ["a", "x"] = none) ∧
      ¬ ∃ table, read "\x7b\"a\": \x7b\"x\": []\x7d, \"a\": true\x7d" = .ok table := by
  have hgood : Json.readFirst "\x7b\"a\": \x7b\"x\": null\x7d, \"a\": true\x7d" =
      .ok (.obj [("a", .obj [("x", .null)]), ("a", .bool true)], []) := by cbv
  have hbad : Json.readFirst "\x7b\"a\": \x7b\"x\": []\x7d, \"a\": true\x7d" =
      .ok (.obj [("a", .obj [("x", .arr [])]), ("a", .bool true)], []) := by cbv
  constructor
  · obtain ⟨hiff, hshape, -, -⟩ := read_iff_hintLike hgood
    have hlike : (Json.obj [("a", .obj [("x", .null)]), ("a", .bool true)]).HintLike := by
      simp [Json.hintLike_obj_iff, Json.hintLike_null, Json.hintLike_bool]
    obtain ⟨table, htable⟩ := hiff.2 ⟨rfl, hlike⟩
    exact ⟨table, htable, hshape table htable ["a"] (by simp),
      hshape table htable ["a", "x"] (by simp)⟩
  · rw [(read_iff_hintLike hbad).1, not_and, ← Json.spoiled_iff]
    have hinner : Json.Part (.arr []) (.obj [("x", .arr [])]) := .entry List.mem_cons_self (.whole _)
    exact fun _ => ⟨.arr [], .entry List.mem_cons_self hinner, by simp [Json.kind]⟩

end HintTable

end SwiftScribe
