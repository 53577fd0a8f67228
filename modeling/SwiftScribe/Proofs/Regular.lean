import SwiftScribe.Proofs.Acceptance
import SwiftScribe.Proofs.JsonText

/-!
# What is read is regular

The type of JSON values has more values than reading produces. What was read holds only integers that are
in range, and none of its objects has a key twice.

* `Json.Every`: a condition on every part of a value, at any depth.
* `Json.every_of_readValue`: **what holds of the leaves of a text and of every container** holds of every
  part of what is read.
* `Json.regular_tidy`: settling repeated keys leaves each key once, and brings in no integer.
* `Json.regular_of_read`: **what is read is regular.**
-/

namespace SwiftScribe.Json

/-! ## Values and their parts -/

theorem depth_of_mem_entries {entries : Entries} {entry : String × Json} (h : entry ∈ entries) :
    entry.2.depth ≤ depthEntries entries := by
  induction entries with
  | nil => cases h
  | cons first rest ih =>
    rw [depthEntries]
    rcases List.mem_cons.1 h with rfl | h
    · exact Nat.le_max_left _ _
    · exact Nat.le_trans (ih h) (Nat.le_max_right _ _)

/-- The items of an array, and the values of an object. -/
def members : Json → List Json
  | .arr items => items
  | .obj entries => entries.map Prod.snd
  | _ => []

theorem depth_lt_of_member {value member : Json} (h : member ∈ value.members) :
    member.depth < value.depth := by
  cases value with
  | arr items => exact Nat.lt_succ_of_le (depth_of_mem h)
  | obj entries =>
    obtain ⟨entry, hentry, rfl⟩ := List.mem_map.1 h
    exact Nat.lt_succ_of_le (depth_of_mem_entries hentry)
  | _ => cases h

/-- **Induction on a value**, from the items of an array and the values of an object to the whole. -/
theorem induct {motive : Json → Prop} (leaf : ∀ value, value.depth = 0 → motive value)
    (arr : ∀ items, (∀ item ∈ items, motive item) → motive (.arr items))
    (obj : ∀ entries : Entries, (∀ entry ∈ entries, motive entry.2) → motive (.obj entries))
    (value : Json) : motive value := by
  -- on a bound of the depth, since items and entries are nested in lists
  have hwithin : ∀ n, ∀ value : Json, value.depth < n → motive value := by
    intro n
    induction n with
    | zero => exact fun value h => absurd h (Nat.not_lt_zero _)
    | succ n ih =>
      intro value h
      have hmembers : ∀ member ∈ value.members, motive member := by
        intro member hm
        have hdepth := depth_lt_of_member hm
        exact ih member (by omega)
      cases value with
      | arr items => exact arr items hmembers
      | obj entries => exact obj entries fun entry hm => hmembers entry.2 (List.mem_map_of_mem hm)
      | _ => exact leaf _ rfl
  exact hwithin (value.depth + 1) value (Nat.lt_succ_self _)

/-- A condition holds of every part of a value. -/
def Every (holds : Json → Prop) (value : Json) : Prop := ∀ part, Part part value → holds part

section Every

variable {holds : Json → Prop}

theorem Every.self {value : Json} (h : value.Every holds) : holds value := h value (.whole value)

theorem every_leaf_iff {value : Json} (hleaf : value.depth = 0) :
    value.Every holds ↔ holds value := by
  refine ⟨Every.self, fun h part hp => ?_⟩
  cases hp with
  | whole => exact h
  | item _ _ => simp [depth] at hleaf
  | entry _ _ => simp [depth] at hleaf

theorem every_arr_iff {items : List Json} :
    Every holds (.arr items) ↔ holds (.arr items) ∧ ∀ item ∈ items, item.Every holds := by
  constructor
  · exact fun h => ⟨h.self, fun item hm part hp => h part (.item hm hp)⟩
  · rintro ⟨hself, hitems⟩ part (_ | ⟨hm, hp⟩ | _)
    · exact hself
    · exact hitems _ hm part hp

theorem every_obj_iff {entries : Entries} :
    Every holds (.obj entries) ↔ holds (.obj entries) ∧ ∀ entry ∈ entries, entry.2.Every holds := by
  constructor
  · exact fun h => ⟨h.self, fun entry hm part hp => h part (.entry hm hp)⟩
  · rintro ⟨hself, hentries⟩ part (_ | _ | ⟨hm, hp⟩)
    · exact hself
    · exact hentries _ hm part hp

end Every

/-- An integer fits in 64 bits, with a sign if it is negative. -/
def Sized : Json → Prop
  | .int n => -0x8000000000000000 ≤ n ∧ n ≤ 0xffffffffffffffff
  | _ => True

/-- No object has a key twice. -/
def Keyed : Json → Prop
  | .obj entries => (entries.map Prod.fst).Nodup
  | _ => True

/-- **A value as reading produces it:** the integers are in range, and no object has a key twice. -/
structure Regular (value : Json) : Prop where
  sized : value.Every Sized
  keyed : value.Every Keyed

theorem Regular.member {value member : Json} (h : value.Regular) (hm : member ∈ value.members) :
    member.Regular := by
  cases value with
  | arr items => exact ⟨(every_arr_iff.1 h.sized).2 member hm, (every_arr_iff.1 h.keyed).2 member hm⟩
  | obj entries =>
    obtain ⟨entry, hentry, rfl⟩ := List.mem_map.1 hm
    exact ⟨(every_obj_iff.1 h.sized).2 entry hentry, (every_obj_iff.1 h.keyed).2 entry hentry⟩
  | _ => cases hm

/-! ## Reading -/

theorem sized_of_numeral {numeral : Numeral} {value : Json} (h : numeral.value = .ok value) :
    value.Sized := by
  unfold Numeral.value at h
  simp only at h
  split at h
  · rename_i hfits
    cases h
    have hmost := hfits.2.2
    constructor <;> omega
  · split at h
    · rename_i hfits
      cases h
      have hmost := hfits.2.2.2
      constructor <;> omega
    · split at h
      · cases h
        trivial
      · cases h

theorem sized_of_readNumber {negative : Bool} {cs rest : List Char} {found : Json}
    (h : readNumber negative cs = .ok (found, rest)) : found.Sized := by
  unfold readNumber at h
  cases hn : Numeral.read negative cs with
  | error e => rw [hn] at h; cases h
  | ok result =>
    obtain ⟨numeral, after⟩ := result
    rw [hn] at h
    cases hv : numeral.value with
    | error e => simp [bind, Except.bind, hv] at h
    | ok value =>
      simp only [bind, Except.bind, hv, Except.ok.injEq, Prod.mk.injEq] at h
      rw [← h.1]
      exact sized_of_numeral hv

theorem sized_of_readLeaf {first : Char} {cs rest : List Char} {found : Json}
    (h : readLeaf first cs = .ok (found, rest)) : found.Sized := by
  unfold readLeaf at h
  split at h
  · rw [depth_of_readWord h]; trivial
  · rw [depth_of_readWord h]; trivial
  · rw [depth_of_readWord h]; trivial
  · cases hs : readString cs with
    | error e => rw [hs] at h; cases h
    | ok result => rw [hs] at h; cases h; trivial
  · exact sized_of_readNumber h
  · split at h
    · exact sized_of_readNumber h
    · cases h

/-- **What holds of the leaves of a text and of every container** holds of every part of what is read. -/
theorem every_of_readValue {holds : Json → Prop}
    (hleaf : ∀ first cs found rest, readLeaf first cs = .ok (found, rest) → holds found)
    (harr : ∀ items, holds (.arr items)) (hobj : ∀ entries, holds (.obj entries)) {limit allowed : Nat}
    {cs rest : List Char} {found : Json} (h : readValue limit allowed cs = .ok (found, rest)) :
    found.Every holds := by
  have hbare : ∀ {first : Char} {cs rest : List Char} {found : Json},
      (readLeaf first cs).mapError Halt.here = .ok (found, rest) → found.Every holds := by
    intro first cs rest found h
    cases hread : readLeaf first cs with
    | error e => rw [hread] at h; cases h
    | ok result =>
      rw [hread] at h
      cases h
      exact (every_leaf_iff (depth_of_readLeaf hread)).2 (hleaf _ _ _ _ hread)
  induction allowed generalizing cs rest found with
  | zero =>
    rw [readValue] at h
    split at h
    · cases h
    · split at h
      · cases h
      · exact hbare h
  | succ allowed ih =>
    rw [readValue] at h
    split at h
    · cases h
    · split at h
      · simp only at h
        split at h
        · obtain ⟨items, rfl, hitems⟩ := forall_of_readContainer (fun _ _ _ hm => ih hm) h
          exact every_arr_iff.2 ⟨harr items, hitems⟩
        · have hmember : ∀ cs entry rest, (Container.object (readValue limit allowed)).member cs =
              .ok (entry, rest) → entry.2.Every holds := by
            intro cs entry rest hm
            obtain ⟨before, hitem⟩ := item_of_readEntry hm
            exact ih hitem
          obtain ⟨entries, rfl, hentries⟩ := forall_of_readContainer hmember h
          exact every_obj_iff.2 ⟨hobj entries, hentries⟩
      · exact hbare h

/-! ## Settling repeated keys -/

theorem tidyItems_eq_map (items : List Json) : tidyItems items = items.map tidy := by
  induction items with
  | nil => rfl
  | cons item rest ih => rw [tidyItems, ih, List.map_cons]

theorem mem_tidyEntries {entries : Entries} {entry : String × Json} (h : entry ∈ tidyEntries entries) :
    ∃ first ∈ entries, entry.2 = first.2.tidy := by
  induction entries with
  | nil => cases h
  | cons head rest ih =>
    obtain ⟨key, value⟩ := head
    rw [tidyEntries] at h
    rcases List.mem_cons.1 h with rfl | h
    · exact ⟨(key, value), List.mem_cons_self, rfl⟩
    · obtain ⟨first, hm, hfirst⟩ := ih h
      exact ⟨first, List.mem_cons_of_mem _ hm, hfirst⟩

theorem Entries.mem_put {done : Entries} {key : String} {value : Json} {entry : String × Json}
    (h : entry ∈ done.put key value) : entry = (key, value) ∨ entry ∈ done := by
  induction done with
  | nil => exact .inl (List.mem_singleton.1 h)
  | cons head rest ih =>
    obtain ⟨name, first⟩ := head
    rw [put] at h
    split at h
    · rcases List.mem_cons.1 h with rfl | h
      · exact .inl rfl
      · exact .inr (List.mem_cons_of_mem _ h)
    · rcases List.mem_cons.1 h with rfl | h
      · exact .inr List.mem_cons_self
      · exact (ih h).imp_right (List.mem_cons_of_mem _)

theorem Entries.nodup_put {done : Entries} (hdone : (done.map Prod.fst).Nodup) (key : String)
    (value : Json) : ((done.put key value).map Prod.fst).Nodup := by
  induction done with
  | nil => simp [put]
  | cons head rest ih =>
    obtain ⟨name, first⟩ := head
    obtain ⟨hfresh, hrest⟩ := List.nodup_cons.1 hdone
    rw [put]
    split
    · rename_i hname
      subst hname
      exact hdone
    · rename_i hname
      refine List.nodup_cons.2 ⟨fun hm => ?_, ih hrest⟩
      obtain ⟨entry, hentry, hkey⟩ := List.mem_map.1 hm
      rcases mem_put hentry with rfl | hentry
      · exact hname hkey.symm
      · exact hfresh (hkey ▸ List.mem_map_of_mem hentry)

/-- Each key is left once, with one of its entries. -/
theorem Entries.distinct_spec (entries : Entries) :
    ((entries.distinct).map Prod.fst).Nodup ∧ ∀ entry ∈ entries.distinct, entry ∈ entries := by
  -- whatever is there already keeps its keys apart, and every entry comes from one of the two lists
  have hfold : ∀ rest done : Entries, (done.map Prod.fst).Nodup →
      ((rest.foldl (fun done entry => done.put entry.1 entry.2) done).map Prod.fst).Nodup ∧
        ∀ entry ∈ rest.foldl (fun done entry => done.put entry.1 entry.2) done,
          entry ∈ done ∨ entry ∈ rest := by
    intro rest
    induction rest with
    | nil => exact fun done hdone => ⟨hdone, fun entry hm => .inl hm⟩
    | cons head rest ih =>
      intro done hdone
      obtain ⟨hnodup, hmem⟩ := ih _ (nodup_put hdone head.1 head.2)
      refine ⟨hnodup, fun entry hm => ?_⟩
      rcases hmem entry hm with hput | hrest
      · rcases mem_put hput with rfl | hput
        · exact .inr List.mem_cons_self
        · exact .inl hput
      · exact .inr (List.mem_cons_of_mem _ hrest)
  obtain ⟨hnodup, hmem⟩ := hfold entries [] List.nodup_nil
  exact ⟨hnodup, fun entry hm => (hmem entry hm).resolve_left List.not_mem_nil⟩

/-- **Settling repeated keys leaves each key once**, and brings in no integer. -/
theorem regular_tidy {value : Json} (h : value.Every Sized) : value.tidy.Regular := by
  induction value using induct with
  | leaf value hleaf =>
    have htidy : value.tidy = value := by
      cases value with
      | arr items => cases hleaf
      | obj entries => cases hleaf
      | _ => rfl
    rw [htidy]
    refine ⟨h, (every_leaf_iff hleaf).2 ?_⟩
    cases value with
    | obj entries => cases hleaf
    | _ => trivial
  | arr items ih =>
    have hitems : ∀ item ∈ tidyItems items, item.Regular := by
      intro item hm
      rw [tidyItems_eq_map] at hm
      obtain ⟨first, hfirst, rfl⟩ := List.mem_map.1 hm
      exact ih first hfirst ((every_arr_iff.1 h).2 first hfirst)
    rw [tidy]
    exact ⟨every_arr_iff.2 ⟨trivial, fun item hm => (hitems item hm).sized⟩,
      every_arr_iff.2 ⟨trivial, fun item hm => (hitems item hm).keyed⟩⟩
  | obj entries ih =>
    obtain ⟨hnodup, hmem⟩ := Entries.distinct_spec (tidyEntries entries)
    have hentries : ∀ entry ∈ (tidyEntries entries).distinct, entry.2.Regular := by
      intro entry hm
      obtain ⟨first, hfirst, hvalue⟩ := mem_tidyEntries (hmem entry hm)
      rw [hvalue]
      exact ih first hfirst ((every_obj_iff.1 h).2 first hfirst)
    rw [tidy]
    exact ⟨every_obj_iff.2 ⟨trivial, fun entry hm => (hentries entry hm).sized⟩,
      every_obj_iff.2 ⟨hnodup, fun entry hm => (hentries entry hm).keyed⟩⟩

/-- **What is read is regular.** -/
theorem regular_of_read {text : String} {value : Json} (h : read text = .ok value) :
    value.Regular := by
  unfold read readFirst at h
  split at h
  · cases h
  · rename_i found rest hread
    split at h
    · cases h
      have hsized : found.Every Sized :=
        every_of_readValue (fun _ _ _ _ => sized_of_readLeaf) (fun _ => trivial) (fun _ => trivial) hread
      exact regular_tidy hsized
    · cases h

end SwiftScribe.Json
