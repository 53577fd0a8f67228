import SwiftScribe.Proofs.Rerun

/-!
# Records tell the truth

Whatever type the records of a batch know, the hints of that batch know it too: no run invents a
type or moves it to another path, and neither does merging.

* `get?_merged`: merging works name by name.
* `lookup_merged`: a merged tree knows only types that one of the two trees knows.
* `records_truthful`: **the records of a batch know nothing that the hints do not know**, and the
  records of a run are about the paths that it asked for.
-/

namespace SwiftScribe

namespace Hint.Entries

/-! ## Merging -/

theorem get?_eq_none_of_lt {entries : Entries} {name : String}
    (h : ∀ entry ∈ entries, name < entry.1) : entries.get? name = none := by
  induction entries with
  | nil => rfl
  | cons head rest ih =>
    obtain ⟨key, value⟩ := head
    have hlt : name < key := h (key, value) List.mem_cons_self
    rw [get?_cons, if_neg (by rintro rfl; exact absurd hlt (String.lt_irrefl name))]
    exact ih fun entry hm => h entry (List.mem_cons_of_mem _ hm)

/-- **Merging works name by name.** -/
theorem get?_merged (entries : Entries) {incoming : Entries} (ho : OrderedEntries incoming)
    (name : String) :
    (mergedEntries entries incoming).get? name =
      match incoming.get? name with
      | none => entries.get? name
      | some hint => some (merged (entries.get? name) hint) := by
  induction incoming generalizing entries with
  | nil => rfl
  | cons head rest ih =>
    obtain ⟨key, hint⟩ := head
    obtain ⟨hfirst, -, htail⟩ := ho
    rw [mergedEntries, ih _ htail, get?_cons]
    by_cases hkey : name = key
    · subst hkey
      rw [if_pos rfl, get?_eq_none_of_lt hfirst]
      simp only [get?_set, if_true]
    · simp only [if_neg hkey, get?_set]

/-- **A merged tree knows only types that one of the two trees knows.** -/
theorem lookup_merged {entries incoming : Entries} (ho : OrderedEntries incoming) {path : TypePath}
    {leaf : Leaf} (h : (mergedEntries entries incoming).lookup path = some leaf) :
    entries.lookup path = some leaf ∨ incoming.lookup path = some leaf := by
  induction path generalizing entries incoming with
  | nil => cases h
  | cons first rest ih =>
    simp only [lookup, get?_merged entries ho] at h ⊢
    cases hi : incoming.get? first with
    | none =>
      rw [hi] at h
      exact .inl h
    | some hint =>
      simp only [hi] at h
      cases he : entries.get? first with
      | none =>
        -- nothing was there, so the name comes in as it is
        have hnew : merged none hint = hint := by cases hint <;> rfl
        rw [he, hnew] at h
        exact .inr h
      | some existing =>
        rw [he] at h
        cases existing with
        | leaf value =>
          have hold : merged (some (.leaf value)) hint = .leaf value := by cases hint <;> rfl
          rw [hold] at h
          exact .inl h
        | unknown =>
          -- only a table takes the place of what is not known
          cases hint with
          | unknown => cases h
          | leaf value => cases h
          | table inner => exact .inr h
        | table nested =>
          cases hint with
          | unknown => exact .inl h
          | leaf value => exact .inl h
          | table inner => exact ih (ho.of_get? hi) h

end Hint.Entries

namespace HintTable

/-- **Records are truthful** if the hints know every type that they know. -/
def Truthful (hints records : HintTable) : Prop :=
  ∀ path leaf, records.lookup path = some leaf → hints.lookup path = some leaf

theorem truthful_empty (hints : HintTable) : Truthful hints .empty := by
  intro path leaf h
  cases path <;> cases h

/-- Merging truthful records gives truthful records. -/
theorem Truthful.merge {hints table other : HintTable} (h₁ : Truthful hints table)
    (h₂ : Truthful hints other) : Truthful hints (table.merge other) := by
  intro path leaf h
  rcases Hint.Entries.lookup_merged other.ordered h with h | h
  · exact h₁ path leaf h
  · exact h₂ path leaf h

end HintTable

/-! ## Runs and batches -/

namespace Source

variable {hints : HintTable} {source : Source} {output : Output}

theorem truthful_of_run (h : source.run hints = .ok output) :
    hints.Truthful output.records := by
  rw [records_of_run h]
  exact fun path leaf => HintTable.lookup_of_explained (HintTable.explained_noteAll _ _)

/-- Every entry of the records is at or above a path that was asked for. -/
theorem asked_of_entry (h : source.run hints = .ok output) {path : TypePath} {hint : Hint}
    (hat : output.records.at? path = some hint) :
    path ≠ [] ∧ ∃ asked ∈ source.asked, path <+: asked := by
  rw [records_of_run h] at hat
  refine ⟨Hint.Entries.ne_nil_of_at? hat, ?_⟩
  have hacc := HintTable.explained_noteAll hints source.asked path hint hat
  cases hint with
  | unknown => exact ⟨path, hacc.1, List.prefix_refl path⟩
  | leaf value => exact ⟨path, hacc.1, List.prefix_refl path⟩
  | table entries =>
    obtain ⟨longer, hm, ha⟩ := hacc
    exact ⟨longer, hm, ha.1⟩

/-- A path that was asked for has an entry, or the records answer for it as the hints do. -/
theorem entry_or_lookup_eq (h : source.run hints = .ok output) {asked : TypePath}
    (hm : asked ∈ source.asked) :
    (∃ hint, output.records.at? asked = some hint) ∨
      output.records.lookup asked = hints.lookup asked := by
  have hsettled : output.records.Settled asked := by
    rw [records_of_run h]
    exact HintTable.settled_noteAll hm (above_of_asked hm).ne_nil
  rcases hsettled with hentry | ⟨shorter, leaf, hs, hleaf⟩
  · exact .inl hentry
  · right
    have hlook := Hint.Entries.lookup_eq_some_iff.2 ⟨shorter, hs.1, hleaf⟩
    exact hlook.trans (truthful_of_run h asked leaf hlook).symm

end Source

theorem run_of_mem_runEach {hints : HintTable} {sources : List Source} {outputs : List Output}
    (h : runEach hints sources = .ok outputs) :
    ∀ output ∈ outputs, ∃ source ∈ sources, source.run hints = .ok output := by
  induction sources generalizing outputs with
  | nil =>
    cases h
    simp
  | cons source rest ih =>
    rw [runEach] at h
    cases hrun : source.run hints with
    | error e => rw [hrun] at h; cases h
    | ok output =>
      cases hrest : runEach hints rest with
      | error e => rw [hrun, hrest] at h; cases h
      | ok others =>
        rw [hrun, hrest] at h
        cases h
        intro one hm
        rcases List.mem_cons.1 hm with rfl | hm
        · exact ⟨source, List.mem_cons_self, hrun⟩
        · obtain ⟨found, hf, hr⟩ := ih hrest one hm
          exact ⟨found, List.mem_cons_of_mem _ hf, hr⟩

/-- Merging any number of truthful records keeps to the truth. -/
theorem truthful_foldl_merge {hints : HintTable} {outputs : List Output}
    (h : ∀ output ∈ outputs, hints.Truthful output.records) :
    ∀ records, hints.Truthful records → hints.Truthful
      (outputs.foldl (fun records output => records.merge output.records) records) := by
  induction outputs with
  | nil => exact fun _ hr => hr
  | cons output rest ih =>
    intro records hr
    rw [List.foldl_cons]
    refine ih (fun one hm => h one (List.mem_cons_of_mem _ hm)) _ ?_
    exact hr.merge (h output List.mem_cons_self)

/-- **Records tell the truth.** What the records of a batch know, the hints know too; the entries of
a run are at or above what it asked for, and what it asked for has an entry, or is answered by the
records as by the hints. -/
theorem records_truthful :
    (∀ hints sources output, runBatch hints sources = .ok output →
      ∀ path leaf, output.records.lookup path = some leaf → hints.lookup path = some leaf) ∧
    (∀ hints (source : Source) output, source.run hints = .ok output →
      (∀ path hint, output.records.at? path = some hint →
        path ≠ [] ∧ ∃ asked ∈ source.asked, path <+: asked) ∧
      (∀ asked ∈ source.asked, (∃ hint, output.records.at? asked = some hint) ∨
        output.records.lookup asked = hints.lookup asked)) := by
  refine ⟨fun hints sources output h => ?_, fun hints source output h => ⟨?_, ?_⟩⟩
  · unfold runBatch at h
    cases heach : runEach hints sources with
    | error e => rw [heach] at h; cases h
    | ok outputs =>
      rw [heach] at h
      cases h
      refine truthful_foldl_merge (fun one hm => ?_) .empty (HintTable.truthful_empty hints)
      obtain ⟨source, -, hrun⟩ := run_of_mem_runEach heach one hm
      exact Source.truthful_of_run hrun
  · exact fun path hint hat => Source.asked_of_entry h hat
  · exact fun asked hm => Source.entry_or_lookup_eq h hm

/-- The types of one source, as the table of a batch holds them. -/
def HintTable.ofSource (name : String) (table : HintTable) : HintTable where
  entries := [(name, .table table.entries)]
  ordered := ⟨by simp, table.ordered, trivial⟩

/-- Two sources of one name. -/
theorem records_truthful_same_name :
    ∃ output, runBatch (.ofSource "a" Source.oneType)
        [⟨"a", Source.redeclared.ast⟩, ⟨"a", Source.redeclared.ast⟩] = .ok output ∧
      output.records.lookup ["a", "f", "@return"] = some (.name "Int") ∧
      (HintTable.ofSource "a" Source.oneType).lookup ["a", "f", "@return"] =
        some (.name "Int") := by
  let code := "// MARK: - a\n\nfunc f<Int>() -> Int \x7b\n\x7d\nvar f : Int\n"
  have hrun : runBatch (.ofSource "a" Source.oneType)
      [⟨"a", Source.redeclared.ast⟩, ⟨"a", Source.redeclared.ast⟩] =
        .ok ⟨code ++ "\n" ++ code, .ofSource "a" Source.typesBeyond⟩ := by
    rfl
  have hlook : (HintTable.ofSource "a" Source.typesBeyond).lookup ["a", "f", "@return"] =
      some (.name "Int") := by
    rfl
  exact ⟨_, hrun, hlook, records_truthful.1 _ _ _ hrun _ _ hlook⟩

end SwiftScribe
