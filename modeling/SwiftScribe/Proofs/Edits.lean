import SwiftScribe.Proofs.Batches

/-!
# The first write wins

A record tree is edited in two ways: a hint is recorded at a path, or another tree is merged into it.
Recording opens the tables on its way before it can know whether the hint finds its place free, and
merging brings in whole tables; still, no edit takes back what is there.

* `Entries.place_eq`: **recording step by step changes nothing unless it is accepted.**
* `HintTable.le_merge`, `HintTable.le_edit`: every edit lets the tree grow.
* `HintTable.takes_iff`: recording is accepted exactly if the tree changes.
* `HintTable.first_write_wins`: what holds of any edits, one after the other.
-/

namespace SwiftScribe

namespace Hint.Entries

variable {entries incoming : Entries} {name first : String} {path : TypePath}

/-! ## Recording, step by step -/

theorem set_set (entries : Entries) (name : String) (hint other : Hint) :
    (entries.set name hint).set name other = entries.set name other := by
  induction entries with
  | nil => simp [set]
  | cons head rest ih =>
    obtain ⟨key, value⟩ := head
    unfold set
    by_cases hlt : name < key
    · simp [hlt, set]
    · by_cases hgt : key < name
      · simp [hlt, hgt, set, ih]
      · simp [hlt, hgt, set]

theorem set_of_get? (ordered : OrderedEntries entries) {hint : Hint}
    (h : entries.get? name = some hint) : entries.set name hint = entries := by
  refine ext_get? (ordered.set name (ordered.of_get? h)) ordered fun other => ?_
  rw [get?_set]
  split
  · rename_i hname
    rw [hname, h]
  · rfl

/-- The entries in which a name may lead on: one that is missing is added, and nothing known is
opened as a table. -/
def opened (entries : Entries) (first : String) : Entries :=
  match entries.get? first with
  | none => (entries.set first .unknown).set first (.table [])
  | some .unknown => entries.set first (.table [])
  | some _ => entries

/-- **Recording as it goes along a path:** every name on the way is opened at once, and the hint is
put at the end if nothing stands there. The flag says whether it was put. -/
def place : TypePath → Hint → Entries → Entries × Bool
  | [], _, entries => (entries, false)
  | [last], hint, entries =>
    match entries.get? last with
    | none => (entries.set last hint, true)
    | some _ => (entries, false)
  | first :: rest, hint, entries =>
    match (entries.opened first).get? first with
    | some (.table nested) =>
      ((entries.opened first).set first (.table (place rest hint nested).1),
        (place rest hint nested).2)
    | _ => (entries.opened first, false)

theorem opened_of_leaf {leaf : Leaf} (h : entries.get? first = some (.leaf leaf)) :
    entries.opened first = entries := by
  unfold opened
  rw [h]

/-- What is opened holds the table that may grow under the name, and nothing else is changed. -/
theorem opened_of_nested {nested : Entries} (h : entries.nested? first = some nested) :
    (entries.opened first).get? first = some (.table nested) ∧
      ∀ hint, (entries.opened first).set first hint = entries.set first hint := by
  unfold nested? at h
  unfold opened
  split at h
  · rename_i hg
    cases h
    simp [hg, set_set, get?_set]
  · rename_i hg
    cases h
    simp [hg, set_set, get?_set]
  · rename_i hg
    cases h
    simp [hg]
  · cases h

/-- A table under a name stays as it is if nothing is recorded in it. -/
theorem set_nested {nested : Entries} (ordered : OrderedEntries entries)
    (h : entries.nested? first = some nested) (hs : nested ≠ []) :
    entries.set first (.table nested) = entries := by
  unfold nested? at h
  split at h
  · cases h; exact absurd rfl hs
  · cases h; exact absurd rfl hs
  · rename_i hg
    cases h
    exact set_of_get? ordered hg
  · cases h

/-- In an empty table every path is free. -/
theorem record?_nil (hp : path ≠ []) (hint : Hint) : record? path hint [] ≠ none := by
  rw [Ne, record?_eq_none_iff]
  have hfree : ∀ other, at? [] other = none := fun other => by cases other <;> rfl
  simp [hp, Settled, hfree]

/-- **Recording step by step changes nothing unless it is accepted**, and then it does the same as
recording at once. -/
theorem place_eq (ordered : OrderedEntries entries) (path : TypePath) (hint : Hint) :
    place path hint entries =
      ((record? path hint entries).getD entries, (record? path hint entries).isSome) := by
  fun_induction record? path hint entries with
  | case1 => rfl
  | case2 last hint entries hsome =>
    obtain ⟨found, hfound⟩ := Option.isSome_iff_exists.1 hsome
    simp [place, hfound]
  | case3 last hint entries hnone =>
    have hget : entries.get? last = none := by simpa using hnone
    simp [place, hget]
  | case4 first rest hint entries hrest ih =>
    have hplace : place (first :: rest) hint entries =
        match (entries.opened first).get? first with
        | some (.table nested) =>
          ((entries.opened first).set first (.table (place rest hint nested).1),
            (place rest hint nested).2)
        | _ => (entries.opened first, false) := by
      obtain ⟨second, more, rfl⟩ := List.exists_cons_of_ne_nil hrest
      rfl
    rw [hplace]
    cases hn : entries.nested? first with
    | none =>
      obtain ⟨leaf, hleaf⟩ := nested?_eq_none_iff.1 hn
      simp [opened_of_leaf hleaf, hleaf]
    | some nested =>
      obtain ⟨hget, hset⟩ := opened_of_nested hn
      simp only [hget, hset, ih nested (Ordered.nested ordered hn), Option.bind_eq_bind,
        Option.bind_some]
      cases hr : record? rest hint nested with
      | some grown => simp
      | none =>
        -- what was opened just now is empty, and takes any path
        have hfilled : nested ≠ [] := by
          rintro rfl
          exact record?_nil hrest hint hr
        simp [set_nested ordered hn hfilled]

/-! ## Merging -/

/-- **Merging takes nothing back.** -/
theorem grows_merged (ho : OrderedEntries incoming) {hint : Hint}
    (h : entries.at? path = some hint) :
    ∃ later, at? (mergedEntries entries incoming) path = some later ∧ hint.Grows later := by
  induction path generalizing entries incoming with
  | nil => cases h
  | cons name rest ih =>
    obtain ⟨existing, hexisting, hsub⟩ := Option.bind_eq_some_iff.1 h
    have hsame : (mergedEntries entries incoming).get? name = some existing →
        ∃ later, at? (mergedEntries entries incoming) (name :: rest) = some later ∧
          hint.Grows later :=
      fun hget => ⟨hint, by rw [at?, hget]; exact hsub, .refl hint⟩
    have hmerged := get?_merged entries ho name
    cases hi : incoming.get? name with
    | none =>
      rw [hi, hexisting] at hmerged
      exact hsame hmerged
    | some new =>
      simp only [hi, hexisting] at hmerged
      cases new with
      | unknown => exact hsame hmerged
      | leaf value => exact hsame hmerged
      | table inner =>
        cases existing with
        | leaf value => exact hsame hmerged
        | unknown =>
          cases rest with
          | cons next tail => cases hsub
          | nil =>
            cases hsub
            exact ⟨.table inner, by rw [at?, hmerged]; rfl, .opened inner⟩
        | table nested =>
          cases rest with
          | nil =>
            cases hsub
            exact ⟨_, by rw [at?, hmerged]; rfl, .table nested _⟩
          | cons next tail =>
            obtain ⟨later, hlater, hgrows⟩ := ih (ho.of_get? hi) hsub
            exact ⟨later, by rw [at?, hmerged]; exact hlater, hgrows⟩

end Hint.Entries

/-! ## Edits -/

/-- **An edit of a record tree.** -/
inductive Edit where
  /-- A hint is recorded at a path. -/
  | record (path : TypePath) (hint : Hint) (ordered : hint.Ordered)
  /-- Another tree is merged in. -/
  | merge (other : HintTable)

namespace HintTable

/-- Whether recording a hint at a path is accepted. -/
def takes (table : HintTable) (path : TypePath) (hint : Hint) (ordered : hint.Ordered) : Bool :=
  (table.record? path hint ordered).isSome

/-- **The table after an edit.** -/
def edit (table : HintTable) : Edit → HintTable
  | .record path hint ordered => (table.record? path hint ordered).getD table
  | .merge other => table.merge other

/-- The table after edits, one after the other. -/
def editAll (table : HintTable) (edits : List Edit) : HintTable := edits.foldl edit table

/-- **The paths of the edits that record a hint and are accepted**, in order. -/
def accepted : HintTable → List Edit → List TypePath
  | _, [] => []
  | table, .record path hint ordered :: rest =>
    if table.takes path hint ordered then
      path :: accepted (table.edit (.record path hint ordered)) rest
    else accepted (table.edit (.record path hint ordered)) rest
  | table, .merge other :: rest => accepted (table.edit (.merge other)) rest

variable {table : HintTable} {path : TypePath} {hint : Hint} {ordered : hint.Ordered}

/-- **All that an edit by recording does**: it is refused, and nothing happens, or it is accepted. -/
theorem edit_cases (table : HintTable) (path : TypePath) (hint : Hint) (ordered : hint.Ordered) :
    (table.takes path hint ordered = false ∧ table.record? path hint ordered = none ∧
        table.edit (.record path hint ordered) = table) ∨
      (table.takes path hint ordered = true ∧ table.record? path hint ordered =
        some (table.edit (.record path hint ordered))) := by
  have hedit : table.edit (.record path hint ordered) =
      (table.record? path hint ordered).getD table := rfl
  unfold takes
  rw [hedit]
  cases table.record? path hint ordered with
  | none => exact .inl ⟨rfl, rfl, rfl⟩
  | some result => exact .inr ⟨rfl, rfl⟩

theorem le_merge (table other : HintTable) : table ≤ table.merge other :=
  fun _ _ h => Hint.Entries.grows_merged other.ordered h

/-- **Every edit lets the tree grow.** -/
theorem le_edit (table : HintTable) (edit : Edit) : table ≤ table.edit edit := by
  cases edit with
  | merge other => exact le_merge table other
  | record path hint ordered =>
    rcases edit_cases table path hint ordered with ⟨-, -, hsame⟩ | ⟨-, hrecord⟩
    · rw [hsame]
    · exact le_record hrecord

theorem editAll_append (table : HintTable) (before after : List Edit) :
    table.editAll (before ++ after) = (table.editAll before).editAll after :=
  List.foldl_append

theorem le_editAll (table : HintTable) (edits : List Edit) : table ≤ table.editAll edits := by
  induction edits generalizing table with
  | nil => exact le_refl table
  | cons edit rest ih => exact le_trans (le_edit table edit) (ih _)

/-! ### Recording -/

theorem takes_iff_free : table.takes path hint ordered ↔ path ≠ [] ∧ ¬ table.Settled path := by
  have hnone := @record?_eq_none_iff table path hint ordered
  rcases edit_cases table path hint ordered with ⟨htakes, hrecord, -⟩ | ⟨htakes, hrecord⟩
  · have hsettled := hnone.1 hrecord
    rw [htakes]
    tauto
  · have hfree := mt hnone.2 (by simp [hrecord])
    rw [htakes]
    tauto

/-- What is accepted stands at its path from then on. -/
theorem at?_edit_of_takes (h : table.takes path hint ordered) :
    (table.edit (.record path hint ordered)).at? path = some hint := by
  rcases edit_cases table path hint ordered with ⟨htakes, -⟩ | ⟨-, hrecord⟩
  · rw [htakes] at h
    cases h
  · exact Hint.Entries.at?_record (entries_of_record? hrecord)

/-- **Recording is accepted exactly if the tree changes.** -/
theorem takes_iff : table.takes path hint ordered ↔ table.edit (.record path hint ordered) ≠ table := by
  constructor
  · intro h hsame
    have hat := at?_edit_of_takes h
    rw [hsame] at hat
    exact (takes_iff_free.1 h).2 (.inl ⟨hint, hat⟩)
  · intro hchanged
    rcases edit_cases table path hint ordered with ⟨-, -, hsame⟩ | ⟨htakes, -⟩
    · exact absurd hsame hchanged
    · exact htakes

theorem entries_record?_eq_none (h : table.record? path hint ordered = none) :
    Hint.Entries.record? path hint table.entries = none :=
  Hint.Entries.record?_eq_none_iff.2 (record?_eq_none_iff.1 h)

/-- Going along the path step by step leaves the same entries, and the same verdict. -/
theorem place_entries (table : HintTable) (path : TypePath) (hint : Hint) (ordered : hint.Ordered) :
    Hint.Entries.place path hint table.entries =
      ((table.edit (.record path hint ordered)).entries, table.takes path hint ordered) := by
  rw [Hint.Entries.place_eq table.ordered]
  rcases edit_cases table path hint ordered with ⟨htakes, hrecord, hsame⟩ | ⟨htakes, hrecord⟩
  · rw [htakes, hsame, entries_record?_eq_none hrecord]
    rfl
  · rw [htakes, entries_of_record? hrecord]
    rfl

/-- **Recording leaves alone what stands on other branches.** -/
theorem at?_edit_other {other : TypePath} (hp : ¬ other <+: path) (hl : ¬ path <+: other) :
    (table.edit (.record path hint ordered)).at? other = table.at? other := by
  rcases edit_cases table path hint ordered with ⟨-, -, hsame⟩ | ⟨-, hrecord⟩
  · rw [hsame]
  · rcases Hint.Entries.record_cases (entries_of_record? hrecord) other with
      ⟨-, hsame⟩ | ⟨rest, rfl, -⟩ | ⟨habove, -⟩
    · exact hsame
    · exact absurd (List.prefix_append path rest) hl
    · exact absurd habove.1 hp

/-- A path is free until it is accepted. -/
theorem not_settled_of_accepted {edits : List Edit} (h : path ∈ table.accepted edits) :
    ¬ table.Settled path := by
  induction edits generalizing table with
  | nil => cases h
  | cons first rest ih =>
    have hrest (hm : path ∈ (table.edit first).accepted rest) : ¬ table.Settled path :=
      fun hs => ih hm (settled_mono (le_edit table first) hs)
    cases first with
    | merge other => exact hrest h
    | record asked hint ordered =>
      unfold accepted at h
      split at h
      · rename_i htakes
        rcases List.mem_cons.1 h with rfl | hm
        · exact (takes_iff_free.1 htakes).2
        · exact hrest hm
      · exact hrest h

/-- **No path is accepted twice.** -/
theorem nodup_accepted (table : HintTable) (edits : List Edit) : (table.accepted edits).Nodup := by
  induction edits generalizing table with
  | nil => exact List.nodup_nil
  | cons first rest ih =>
    cases first with
    | merge other => exact ih _
    | record path hint ordered =>
      unfold accepted
      split
      · rename_i htakes
        refine List.nodup_cons.2 ⟨fun hm => ?_, ih _⟩
        exact not_settled_of_accepted hm (.inl ⟨hint, at?_edit_of_takes htakes⟩)
      · exact ih _

/-- **The first write wins.** Whatever edits a tree has gone through, the next one lets it grow, and
no later edit changes an answer. Recording does the same as going along the path step by step, is
accepted exactly if the tree changes, and leaves other branches alone. In all the edits no path is
accepted twice. -/
theorem first_write_wins (start : HintTable) (before after : List Edit) :
    (∀ edit, start.editAll before ≤ start.editAll (before ++ [edit])) ∧
      (∀ path leaf, (start.editAll before).lookup path = some leaf →
        (start.editAll (before ++ after)).lookup path = some leaf) ∧
      (∀ path hint ordered,
        let table := start.editAll before
        let next := start.editAll (before ++ [.record path hint ordered])
        Hint.Entries.place path hint table.entries =
            (next.entries, table.takes path hint ordered) ∧
          (table.takes path hint ordered ↔ next ≠ table) ∧
          ∀ other, ¬ other <+: path → ¬ path <+: other → next.at? other = table.at? other) ∧
      (start.accepted (before ++ after)).Nodup := by
  have hlast (edit : Edit) : start.editAll (before ++ [edit]) = (start.editAll before).edit edit :=
    editAll_append start before [edit]
  refine ⟨fun edit => ?_, fun path leaf h => ?_, fun path hint ordered => ?_, nodup_accepted _ _⟩
  · rw [hlast]
    exact le_edit _ edit
  · rw [editAll_append]
    exact lookup_mono (le_editAll _ after) h
  · simp only [hlast]
    exact ⟨place_entries _ path hint ordered, takes_iff, fun _ => at?_edit_other⟩

end HintTable

end SwiftScribe
