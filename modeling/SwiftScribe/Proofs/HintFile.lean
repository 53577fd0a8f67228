import SwiftScribe.Proofs.Batches
import SwiftScribe.Proofs.JsonText
import SwiftScribe.Proofs.Reach

/-!
# Records read back as hints

The records of a batch are written as a JSON text, for a later run to read as its hints. The reader
accepts a certain nesting only, so a text reads back if the records are no deeper than that. Each
level of the records is a name of a path that was asked for, and paths are no longer than the syntax
trees are deep.

* `HintTable.read_pretty`: a table that is not too deep reads back from its text.
* `Hint.Entries.depth_record`, `HintTable.Within.merge`: recording and merging deepen a table only as
  far as the paths go.
* `runBatch_records_read`: **the records of a batch read back**, and are no deeper than the deepest of
  its syntax trees.
-/

namespace SwiftScribe

/-! ## Tables as JSON -/

namespace Hint

mutual
theorem worded_toJson : (hint : Hint) → hint.toJson.Worded
  | .unknown => trivial
  | .leaf (.flag _) => trivial
  | .leaf (.name _) => trivial
  | .table entries => worded_toEntries entries

theorem worded_toEntries : (entries : Entries) → Json.WordedEntries (toEntries entries)
  | [] => trivial
  | (_, hint) :: rest => ⟨worded_toJson hint, worded_toEntries rest⟩
end

namespace Entries

/-- A name above all others goes to the end. -/
theorem set_eq_append {done : Entries} {name : String} (h : ∀ entry ∈ done, entry.1 < name)
    (hint : Hint) : done.set name hint = done ++ [(name, hint)] := by
  induction done with
  | nil => rfl
  | cons head rest ih =>
    obtain ⟨key, value⟩ := head
    have hkey : key < name := h _ List.mem_cons_self
    rw [set, if_neg (fun hlt => String.lt_irrefl _ (String.lt_trans hkey hlt)), if_pos hkey,
      ih fun entry hm => h entry (List.mem_cons_of_mem _ hm)]
    rfl

end Entries

/-- The names of a table come before those that follow. -/
def Before (done rest : Entries) : Prop := ∀ entry ∈ done, ∀ other ∈ rest, entry.1 < other.1

theorem Before.step {done rest : Entries} {name : String} {hint : Hint}
    (h : Before done ((name, hint) :: rest)) (ho : ∀ entry ∈ rest, name < entry.1) :
    Before (done ++ [(name, hint)]) rest := by
  intro entry hm other ho'
  rcases List.mem_append.1 hm with hm | hm
  · exact h entry hm other (List.mem_cons_of_mem _ ho')
  · rw [List.mem_singleton.1 hm]
    exact ho other ho'

mutual
/-- **A hint is what its JSON value stands for.** -/
theorem ofJson?_toJson : (hint : Hint) → hint.Ordered → ofJson? hint.toJson = some hint
  | .unknown, _ => rfl
  | .leaf (.flag _), _ => rfl
  | .leaf (.name _), _ => rfl
  | .table entries, ho => by
    have h := ofEntries?_toEntries entries [] ho fun _ h => absurd h List.not_mem_nil
    rw [toJson, ofJson?, h]
    rfl

theorem ofEntries?_toEntries : (entries done : Entries) → OrderedEntries entries →
    Before done entries → ofEntries? done (toEntries entries) = some (done ++ entries)
  | [], done, _, _ => by rw [toEntries, ofEntries?, List.append_nil]
  | (name, hint) :: rest, done, ⟨hfirst, hhint, hrest⟩, hb => by
    have hset := Entries.set_eq_append (fun entry hm => hb entry hm _ List.mem_cons_self) hint
    have h := ofEntries?_toEntries rest (done ++ [(name, hint)]) hrest (hb.step hfirst)
    rw [toEntries, ofEntries?, ofJson?_toJson hint hhint]
    simp only [Option.bind_eq_bind, Option.bind_some]
    rw [hset, h, List.append_assoc]
    rfl
end

end Hint

namespace HintTable

theorem addEntries_toEntries (done : HintTable) (entries : Hint.Entries)
    (ho : Hint.OrderedEntries entries) (hb : Hint.Before done.entries entries) :
    ∃ table, addEntries done (Hint.toEntries entries) = .ok table ∧
      table.entries = done.entries ++ entries := by
  induction entries generalizing done with
  | nil => exact ⟨done, rfl, (List.append_nil _).symm⟩
  | cons head rest ih =>
    obtain ⟨name, hint⟩ := head
    obtain ⟨hfirst, hhint, hrest⟩ := ho
    have hset := Hint.Entries.set_eq_append (fun entry hm => hb entry hm _ List.mem_cons_self) hint
    rw [Hint.toEntries, addEntries]
    split
    · rename_i found hfound
      obtain rfl : hint = found := by
        rw [Hint.ofJson?_toJson hint hhint] at hfound
        exact Option.some.inj hfound
      obtain ⟨table, htable, hentries⟩ := ih ⟨done.entries.set name hint, _⟩ hrest
        (by simpa only [hset] using hb.step hfirst)
      refine ⟨table, htable, ?_⟩
      calc table.entries = done.entries.set name hint ++ rest := hentries
        _ = done.entries ++ (name, hint) :: rest := by rw [hset, List.append_assoc]; rfl
    · rename_i hnone
      rw [Hint.ofJson?_toJson hint hhint] at hnone
      cases hnone

/-- **A table is what its JSON value stands for.** -/
theorem ofJson_toJson (table : HintTable) : ofJson table.toJson = .ok table := by
  obtain ⟨found, hfound, hentries⟩ :=
    addEntries_toEntries empty table.entries table.ordered fun _ h => absurd h List.not_mem_nil
  obtain ⟨entries, ordered⟩ := table
  obtain ⟨entries', ordered'⟩ := found
  obtain rfl : entries' = entries := hentries
  exact hfound

/-- **A table that is not too deep reads back from its text.** -/
theorem read_pretty {table : HintTable} (h : table.toJson.depth ≤ Json.nestingLimit) :
    HintTable.read table.toJson.pretty = .ok table := by
  have hworded : table.toJson.Worded := Hint.worded_toEntries table.entries
  rw [HintTable.read, Json.readFirst_pretty hworded h]
  simp only [ofJson_toJson]
  rfl

end HintTable

/-! ## Depth of records -/

namespace Hint.Entries

variable {entries : Entries} {n : Nat}

/-- **No entry is deeper than some bound.** -/
def Within (n : Nat) (entries : Entries) : Prop := ∀ entry ∈ entries, entry.2.toJson.depth ≤ n

theorem depth_toEntries_le_iff : Json.depthEntries (toEntries entries) ≤ n ↔ entries.Within n := by
  induction entries with
  | nil => simp [toEntries, Json.depthEntries, Within]
  | cons head rest ih =>
    obtain ⟨name, hint⟩ := head
    rw [toEntries, Json.depthEntries, Nat.max_le, ih]
    simp [Within]

theorem depth_table_le_iff :
    (Hint.table entries).toJson.depth ≤ n + 1 ↔ entries.Within n := by
  rw [toJson, Json.depth, ← depth_toEntries_le_iff]
  omega

theorem Within.set {name : String} {hint : Hint} (h : entries.Within n)
    (hh : hint.toJson.depth ≤ n) : (entries.set name hint).Within n := by
  intro entry hm
  rcases mem_set hm with rfl | hm
  · exact hh
  · exact h entry hm

theorem Within.of_get? {name : String} {hint : Hint} (h : entries.Within n)
    (hg : entries.get? name = some hint) : hint.toJson.depth ≤ n := by
  induction entries with
  | nil => cases hg
  | cons head rest ih =>
    obtain ⟨key, value⟩ := head
    rw [get?_cons] at hg
    split at hg
    · cases hg
      exact h _ List.mem_cons_self
    · exact ih (fun entry hm => h entry (List.mem_cons_of_mem _ hm)) hg

theorem Within.of_nested? {name : String} {nested : Entries} (h : entries.Within (n + 1))
    (hn : entries.nested? name = some nested) : nested.Within n := by
  unfold nested? at hn
  split at hn
  · cases hn; exact fun _ h => absurd h List.not_mem_nil
  · cases hn; exact fun _ h => absurd h List.not_mem_nil
  · rename_i inner hg
    cases hn
    exact depth_table_le_iff.1 (h.of_get? hg)
  · cases hn

/-- **Recording deepens a table only as far as the path goes.** -/
theorem Within.record {path : TypePath} {hint : Hint} {result : Entries} (h : entries.Within n)
    (hp : path.length ≤ n + 1) (hh : hint.toJson.depth = 0)
    (hr : record? path hint entries = some result) : result.Within n := by
  fun_induction record? path hint entries generalizing n result with
  | case1 => cases hr
  | case2 => cases hr
  | case3 last hint entries _ =>
    cases hr
    exact h.set (by omega)
  | case4 first rest hint entries hrest ih =>
    obtain ⟨nested, hn, hr⟩ := Option.bind_eq_some_iff.1 hr
    obtain ⟨grown, hgrown, hr⟩ := Option.bind_eq_some_iff.1 hr
    cases hr
    have hlong : 0 < rest.length := List.length_pos_iff.2 hrest
    rw [List.length_cons] at hp
    obtain ⟨n, rfl⟩ : ∃ k, n = k + 1 := ⟨n - 1, by omega⟩
    exact h.set (depth_table_le_iff.2 (ih nested (h.of_nested? hn) (by omega) hh hgrown))

end Hint.Entries

namespace Hint

mutual
theorem depth_merged_le {n : Nat} {existing : Option Hint}
    (he : ∀ hint ∈ existing, hint.toJson.depth ≤ n) :
    (incoming : Hint) → incoming.toJson.depth ≤ n → (merged existing incoming).toJson.depth ≤ n
  | .table incoming, hi => by
    cases existing with
    | none => exact hi
    | some hint =>
      cases hint with
      | unknown => exact hi
      | leaf value => exact he _ rfl
      | table entries =>
        obtain ⟨n, rfl⟩ : ∃ k, n = k + 1 := ⟨n - 1, by rw [toJson, Json.depth] at hi; omega⟩
        rw [merged]
        exact Entries.depth_table_le_iff.2 (within_mergedEntries
          (Entries.depth_table_le_iff.1 (he _ rfl)) incoming (Entries.depth_table_le_iff.1 hi))
  | .unknown, hi => by
    cases existing with
    | none => exact hi
    | some hint => exact he hint rfl
  | .leaf value, hi => by
    cases existing with
    | none => exact hi
    | some hint => exact he hint rfl

theorem within_mergedEntries {n : Nat} {entries : Entries} (h : entries.Within n) :
    (incoming : Entries) → incoming.Within n → Entries.Within n (mergedEntries entries incoming)
  | [], _ => h
  | (name, hint) :: rest, hi => by
    rw [mergedEntries]
    have hexisting : ∀ found ∈ entries.get? name, found.toJson.depth ≤ n := fun _ hg => h.of_get? hg
    have hhere := depth_merged_le hexisting hint (hi _ List.mem_cons_self)
    exact within_mergedEntries (h.set hhere) rest fun entry hm => hi entry (List.mem_cons_of_mem _ hm)
end

end Hint

namespace HintTable

variable {hints records other : HintTable} {n : Nat}

theorem depth_toJson_le_iff {table : HintTable} :
    table.toJson.depth ≤ n + 1 ↔ table.entries.Within n :=
  Hint.Entries.depth_table_le_iff

theorem within_note {path : TypePath} (h : records.entries.Within n) (hp : path.length ≤ n + 1) :
    (hints.note records path).entries.Within n := by
  have hleaf : (Hint.ofLeaf? (hints.lookup path)).toJson.depth = 0 := by
    cases hints.lookup path with
    | none => rfl
    | some leaf => cases leaf <;> rfl
  rw [entries_note]
  cases hr : Hint.Entries.record? path (.ofLeaf? (hints.lookup path)) records.entries with
  | none => exact h
  | some result => exact h.record hp hleaf hr

/-- Notes deepen the records only as far as their paths go. -/
theorem within_noteAll {paths : List TypePath} (h : records.entries.Within n)
    (hp : ∀ path ∈ paths, path.length ≤ n + 1) :
    (hints.noteAll records paths).entries.Within n := by
  induction paths generalizing records with
  | nil => exact h
  | cons path tail ih =>
    rw [noteAll_cons]
    exact ih (within_note h (hp path List.mem_cons_self))
      fun other hm => hp other (List.mem_cons_of_mem _ hm)

theorem within_merge (h : records.entries.Within n) (ho : other.entries.Within n) :
    (records.merge other).entries.Within n :=
  Hint.within_mergedEntries h other.entries ho

end HintTable

/-! ## Batches -/

section Batches

variable {hints : HintTable} {sources : List Source} {output : Output} {n : Nat}

/-- **The records of a run are no deeper than its syntax tree.** -/
theorem Source.within_of_run {source : Source} (h : source.run hints = .ok output)
    (hd : source.ast.depth ≤ n + 1) : output.records.entries.Within n := by
  rw [records_of_run h]
  refine HintTable.within_noteAll (fun _ h => absurd h List.not_mem_nil) fun path hm => ?_
  have hlength := length_asked hm
  have hpath : source.path.length ≤ 1 := by
    unfold Source.path
    cases source.name? <;> simp
  omega

theorem Source.one_le_depth_of_run {source : Source} (h : source.run hints = .ok output) :
    1 ≤ source.ast.depth := by
  unfold Source.run at h
  cases hd : Node.decode source.ast with
  | error e => simp [Node.decodeDiagnosed_of_error hd] at h
  | ok node => exact Nat.le_trans node.one_le_depth_form (Node.depth_form_le hd)

theorem within_runBatch (h : runBatch hints sources = .ok output)
    (hd : ∀ source ∈ sources, source.ast.depth ≤ n + 1) : output.records.entries.Within n := by
  obtain ⟨outputs, hruns, rfl⟩ := runs_of_runBatch h
  have hfold : ∀ records : HintTable, records.entries.Within n →
      (outputs.foldl (fun records output => records.merge output.records) records).entries.Within
        n := by
    clear h
    induction hruns with
    | nil => exact fun _ hr => hr
    | @cons source output sources outputs hrun _ ih =>
      intro records hr
      have hhere := Source.within_of_run hrun (hd source List.mem_cons_self)
      exact ih (fun other hm => hd other (List.mem_cons_of_mem _ hm)) _
        (HintTable.within_merge hr hhere)
  exact hfold .empty fun _ h => absurd h List.not_mem_nil

/-- Of some sources one has the deepest syntax tree. -/
theorem exists_deepest (hne : sources ≠ []) :
    ∃ deepest ∈ sources, ∀ source ∈ sources, source.ast.depth ≤ deepest.ast.depth := by
  induction sources with
  | nil => exact absurd rfl hne
  | cons first rest ih =>
    by_cases hrest : rest = []
    · subst hrest
      exact ⟨first, by simp, by simp⟩
    · obtain ⟨deepest, hm, hmax⟩ := ih hrest
      rcases Nat.le_total first.ast.depth deepest.ast.depth with hle | hle
      · refine ⟨deepest, List.mem_cons_of_mem _ hm, fun source hs => ?_⟩
        rcases List.mem_cons.1 hs with rfl | hs
        · exact hle
        · exact hmax source hs
      · refine ⟨first, List.mem_cons_self, fun source hs => ?_⟩
        rcases List.mem_cons.1 hs with rfl | hs
        · exact Nat.le_refl _
        · exact Nat.le_trans (hmax source hs) hle

/-- **The records of a batch read back as hints** from the text in which they are written, whatever
hints the batch was run on, if its syntax trees were read from text themselves. They are no deeper
than the deepest of the syntax trees. -/
theorem runBatch_records_read (hne : sources ≠ [])
    (htexts : ∀ source ∈ sources, ∃ text, Json.read text = .ok source.ast)
    (h : runBatch hints sources = .ok output) :
    HintTable.read output.records.toJson.pretty = .ok output.records ∧
      ∃ source ∈ sources, output.records.toJson.depth ≤ source.ast.depth := by
  obtain ⟨deepest, hm, hmax⟩ := exists_deepest hne
  obtain ⟨alone, hrun⟩ := exists_runBatch_iff.1 ⟨output, h⟩ deepest hm
  have hpos := Source.one_le_depth_of_run hrun
  have hdepth : output.records.toJson.depth ≤ deepest.ast.depth := by
    obtain ⟨n, hn⟩ : ∃ k, deepest.ast.depth = k + 1 := ⟨deepest.ast.depth - 1, by omega⟩
    rw [hn] at hmax ⊢
    exact HintTable.depth_toJson_le_iff.2 (within_runBatch h hmax)
  obtain ⟨text, htext⟩ := htexts deepest hm
  exact ⟨HintTable.read_pretty (Nat.le_trans hdepth (Json.depth_of_read htext)), deepest, hm, hdepth⟩

/-- A single variable, as shallow as a tree that asks for a type can be. -/
def Source.variable : Source where
  name? := some "a"
  ast :=
    .obj [("type", .str "VariableDeclarator"),
      ("id", .obj [("type", .str "Identifier"), ("name", .str "f")])]

/-- The bound is reached: the records of a single variable are as deep as its syntax tree. -/
theorem runBatch_records_read_variable :
    let hints := HintTable.ofSource "a" Source.oneType
    ∃ output, runBatch hints [Source.variable] = .ok output ∧
      output.records.toJson.depth = Source.variable.ast.depth ∧
      HintTable.read output.records.toJson.pretty = .ok output.records := by
  intro hints
  have htext : Json.read Source.variable.ast.pretty = .ok Source.variable.ast :=
    Json.read_pretty (by simp [Source.variable, Json.Worded, Json.WordedEntries]) (by decide)
  have htexts : ∀ source ∈ [Source.variable], ∃ text, Json.read text = .ok source.ast := by
    intro source hm
    rw [List.mem_singleton.1 hm]
    exact ⟨_, htext⟩
  exact ⟨_, rfl, rfl, (runBatch_records_read (List.cons_ne_nil _ _) htexts rfl).1⟩

end Batches

end SwiftScribe
