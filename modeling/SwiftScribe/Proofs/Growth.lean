import Mathlib.Data.List.Induction
import SwiftScribe.Proofs.Tree

/-!
# How records grow

The records of a run start empty, and every path that is asked for is noted in them. They only
grow: `table ≤ grown` says that every entry of `table` is still there in `grown`, a leaf unchanged,
a table a table, and only an entry of which nothing was known perhaps a table.

* `le_record`, `le_noteAll`: records only grow, so that an answer once given stays.
* `explained_noteAll`: every entry of the records comes from a path that was noted, and says about
  it what the hints say.
* `settled_noteAll`: every path that was noted has an entry, or a leaf above it.
* `lookup_noteAll`: **what records answer.** They know a type for a path exactly if the hints do and
  some typed path, the path itself or a shorter one, was noted before anything beyond it was.
-/

namespace SwiftScribe

/-- **What may become of an entry** as a tree grows. -/
inductive Hint.Grows : Hint → Hint → Prop
  | unknown : Grows .unknown .unknown
  /-- Where nothing is known, a table may appear. -/
  | opened (entries : Hint.Entries) : Grows .unknown (.table entries)
  | leaf (value : Leaf) : Grows (.leaf value) (.leaf value)
  | table (entries grown : Hint.Entries) : Grows (.table entries) (.table grown)

theorem Hint.Grows.refl (hint : Hint) : hint.Grows hint := by
  cases hint with
  | unknown => exact .unknown
  | leaf value => exact .leaf value
  | table entries => exact .table entries entries

theorem Hint.Grows.trans {first second third : Hint} (h₁ : first.Grows second)
    (h₂ : second.Grows third) : first.Grows third := by
  cases h₁ with
  | unknown => exact h₂
  | leaf value => exact h₂
  | opened entries => cases h₂; exact .opened _
  | table entries grown => cases h₂; exact .table _ _

namespace HintTable

/-- The entry at a path, if there is one. -/
def at? (table : HintTable) (path : TypePath) : Option Hint := table.entries.at? path

/-- A path has an entry, or a leaf stands above it. -/
def Settled (table : HintTable) (path : TypePath) : Prop := table.entries.Settled path

/-- **A table grows into another one.** -/
instance : Preorder HintTable where
  le table grown := ∀ path hint, table.at? path = some hint →
    ∃ later, grown.at? path = some later ∧ hint.Grows later
  le_refl _ _ hint h := ⟨hint, h, .refl hint⟩
  le_trans _ _ _ h₁ h₂ path hint h := by
    obtain ⟨middle, hm, hg₁⟩ := h₁ path hint h
    obtain ⟨later, hl, hg₂⟩ := h₂ path middle hm
    exact ⟨later, hl, hg₁.trans hg₂⟩

variable {table grown : HintTable} {path : TypePath}

theorem at?_leaf_mono (hle : table ≤ grown) {leaf : Leaf} (h : table.at? path = some (.leaf leaf)) :
    grown.at? path = some (.leaf leaf) := by
  obtain ⟨later, hl, hg⟩ := hle path _ h
  cases hg
  exact hl

/-- An answer once given stays. -/
theorem lookup_mono (hle : table ≤ grown) {leaf : Leaf} (h : table.lookup path = some leaf) :
    grown.lookup path = some leaf := by
  obtain ⟨shorter, hs, hleaf⟩ := Hint.Entries.lookup_eq_some_iff.1 h
  exact Hint.Entries.lookup_eq_some_iff.2 ⟨shorter, hs, at?_leaf_mono hle hleaf⟩

theorem settled_mono (hle : table ≤ grown) (h : table.Settled path) : grown.Settled path := by
  rcases h with ⟨hint, h⟩ | ⟨shorter, leaf, ha, hleaf⟩
  · obtain ⟨later, hl, -⟩ := hle path hint h
    exact .inl ⟨later, hl⟩
  · exact .inr ⟨shorter, leaf, ha, at?_leaf_mono hle hleaf⟩

/-- **Where a path is settled, so are the shorter ones.** -/
theorem Settled.of_above {shorter : TypePath} (hs : shorter ≠ []) (ha : shorter.Above path)
    (h : table.Settled path) : table.Settled shorter := by
  rcases h with ⟨hint, h⟩ | ⟨other, leaf, ho, hleaf⟩
  · obtain ⟨nested, htable⟩ := Hint.Entries.table_of_above ha hs h
    exact .inl ⟨.table nested, htable⟩
  · -- both are prefixes of the path, so one of them is a prefix of the other
    rcases List.prefix_or_prefix_of_prefix ho.1 ha.1 with hp | hp
    · by_cases heq : other = shorter
      · subst heq
        exact .inl ⟨_, hleaf⟩
      · exact .inr ⟨other, leaf, ⟨hp, heq⟩, hleaf⟩
    · by_cases heq : shorter = other
      · subst heq
        exact .inl ⟨_, hleaf⟩
      · obtain ⟨nested, htable⟩ := Hint.Entries.table_of_above ⟨hp, heq⟩ hs hleaf
        exact .inl ⟨.table nested, htable⟩

/-! ## Recording in a table -/

theorem record?_eq_none_iff {hint : Hint} {below : hint.Ordered} :
    table.record? path hint below = none ↔ path = [] ∨ table.Settled path := by
  unfold Settled
  rw [← @Hint.Entries.record?_eq_none_iff table.entries path hint]
  unfold record?
  split <;> simp_all

theorem entries_of_record? {hint : Hint} {below : hint.Ordered} {result : HintTable}
    (h : table.record? path hint below = some result) :
    Hint.Entries.record? path hint table.entries = some result.entries := by
  unfold record? at h
  split at h
  · cases h
  · rename_i entries hr
    cases h
    exact hr

/-- Recording lets a table grow. -/
theorem le_record {hint : Hint} {below : hint.Ordered} {result : HintTable}
    (h : table.record? path hint below = some result) : table ≤ result := by
  intro other found hfound
  have hentries := entries_of_record? h
  rcases Hint.Entries.record_cases hentries other with
    ⟨-, hsame⟩ | ⟨rest, -, hnone, -⟩ | ⟨-, hleaf, nested, htable⟩
  · exact ⟨found, by rw [at?, hsame]; exact hfound, .refl found⟩
  · rw [at?, hnone] at hfound
    cases hfound
  · refine ⟨.table nested, htable, ?_⟩
    cases found with
    | unknown => exact .opened nested
    | leaf value => exact absurd hfound (hleaf value)
    | table entries => exact .table entries nested

/-! ## Noting paths -/

variable {hints records : HintTable}

/-- **Noting a path, case by case**: it is settled and nothing happens, or what the hints say about
it is recorded. -/
theorem note_cases (hints records : HintTable) (path : TypePath) :
    ((path = [] ∨ records.Settled path) ∧ hints.note records path = records) ∨
      (¬ records.Settled path ∧ records.record? path (.ofLeaf? (hints.lookup path))
        (Hint.ordered_ofLeaf? _) = some (hints.note records path)) := by
  unfold note note?
  cases h : records.record? path (.ofLeaf? (hints.lookup path)) (Hint.ordered_ofLeaf? _) with
  | none => exact .inl ⟨record?_eq_none_iff.1 h, rfl⟩
  | some result =>
    refine .inr ⟨fun hs => ?_, rfl⟩
    rw [record?_eq_none_iff.2 (.inr hs)] at h
    cases h

theorem le_note (hints records : HintTable) (path : TypePath) :
    records ≤ hints.note records path := by
  rcases note_cases hints records path with ⟨-, h⟩ | ⟨-, h⟩
  · rw [h]
  · exact le_record h

theorem noteAll_cons (path : TypePath) (paths : List TypePath) :
    hints.noteAll records (path :: paths) = hints.noteAll (hints.note records path) paths := rfl

theorem noteAll_append (before after : List TypePath) :
    hints.noteAll records (before ++ after) = hints.noteAll (hints.noteAll records before) after :=
  List.foldl_append

/-- **Records only grow.** -/
theorem le_noteAll (hints records : HintTable) (paths : List TypePath) :
    records ≤ hints.noteAll records paths := by
  induction paths generalizing records with
  | nil => exact le_refl records
  | cons path rest ih => exact le_trans (le_note hints records path) (ih _)

theorem settled_note (hp : path ≠ []) : (hints.note records path).Settled path := by
  rcases note_cases hints records path with ⟨hs, h⟩ | ⟨-, h⟩
  · rw [h]
    exact hs.resolve_left hp
  · exact .inl ⟨_, Hint.Entries.at?_record (entries_of_record? h)⟩

/-- **Every path that was noted is settled.** -/
theorem settled_noteAll {paths : List TypePath} (hm : path ∈ paths) (hp : path ≠ []) :
    (hints.noteAll records paths).Settled path := by
  obtain ⟨before, after, rfl⟩ := List.append_of_mem hm
  rw [noteAll_append, noteAll_cons]
  exact settled_mono (le_noteAll _ _ _) (settled_note hp)

/-! ## Where entries come from -/

/-- What noting some paths has to do with an entry at a path: an answer belongs to a path that was
noted, and is that of the hints; a table is there for something beyond it. -/
def Accounts (hints : HintTable) (paths : List TypePath) (path : TypePath) : Hint → Prop
  | .leaf value => path ∈ paths ∧ hints.lookup path = some value
  | .unknown => path ∈ paths ∧ hints.lookup path = none
  | .table _ => ∃ longer ∈ paths, path.Above longer

/-- **Every entry is explained** by paths that were noted. -/
def Explained (hints : HintTable) (paths : List TypePath) (records : HintTable) : Prop :=
  ∀ path hint, records.at? path = some hint → Accounts hints paths path hint

theorem Accounts.mono {paths more : List TypePath} (hsub : paths ⊆ more) {hint : Hint}
    (h : Accounts hints paths path hint) : Accounts hints more path hint := by
  cases hint with
  | unknown => exact ⟨hsub h.1, h.2⟩
  | leaf value => exact ⟨hsub h.1, h.2⟩
  | table entries =>
    obtain ⟨longer, hl, ha⟩ := h
    exact ⟨longer, hsub hl, ha⟩

theorem accounts_ofLeaf? {paths : List TypePath} (hm : path ∈ paths) :
    Accounts hints paths path (.ofLeaf? (hints.lookup path)) := by
  cases h : hints.lookup path with
  | none => exact ⟨hm, h⟩
  | some leaf => exact ⟨hm, h⟩

/-- Beyond a leaf, or where nothing is known, there is nothing. -/
theorem sub?_ofLeaf? (leaf? : Option Leaf) {name : String} {rest : TypePath} :
    Hint.sub? (name :: rest) (.ofLeaf? leaf?) = none := by
  cases leaf? <;> rfl

/-- Noting one more path keeps every entry explained. -/
theorem Explained.note {paths : List TypePath} (h : Explained hints paths records)
    (path : TypePath) : Explained hints (paths ++ [path]) (hints.note records path) := by
  have hsub : paths ⊆ paths ++ [path] := List.subset_append_left _ _
  intro other hint hother
  rcases note_cases hints records path with ⟨-, hsame⟩ | ⟨-, hrec⟩
  · rw [hsame] at hother
    exact (h other hint hother).mono hsub
  · have hnew : path ∈ paths ++ [path] := by simp
    rcases Hint.Entries.record_cases (entries_of_record? hrec) other with
      ⟨-, hsame⟩ | ⟨rest, rfl, -, hat⟩ | ⟨ha, -, nested, hat⟩
    · rw [at?, hsame] at hother
      exact (h other hint hother).mono hsub
    · rw [at?, hat] at hother
      cases rest with
      | nil =>
        cases hother
        rw [List.append_nil]
        exact accounts_ofLeaf? hnew
      | cons name rest =>
        rw [sub?_ofLeaf?] at hother
        cases hother
    · rw [at?, hat] at hother
      cases hother
      exact ⟨path, hnew, ha⟩

/-- **Every entry of the records of a run is explained.** -/
theorem explained_noteAll (hints : HintTable) (paths : List TypePath) :
    Explained hints paths (hints.noteAll .empty paths) := by
  induction paths using List.reverseRecOn with
  | nil =>
    intro path hint h
    cases path <;> cases h
  | append_singleton paths path ih =>
    rw [noteAll_append]
    exact ih.note path

/-- **Hints and records agree where the records know a type.** -/
theorem lookup_of_explained {paths : List TypePath} (h : Explained hints paths records)
    {leaf : Leaf} (hl : records.lookup path = some leaf) : hints.lookup path = some leaf := by
  obtain ⟨shorter, hs, hleaf⟩ := Hint.Entries.lookup_eq_some_iff.1 hl
  exact Hint.Entries.lookup_longer hs (h shorter _ hleaf).2

/-! ## What records answer -/

/-- **A path comes early** among others if it is met before any path beyond it. -/
def Early (paths : List TypePath) (path : TypePath) : Prop :=
  ∃ before after, paths = before ++ path :: after ∧ ∀ other ∈ before, ¬ path.Above other

theorem Early.append {paths : List TypePath} (h : Early paths path) (more : List TypePath) :
    Early (paths ++ more) path := by
  obtain ⟨before, after, rfl, hb⟩ := h
  exact ⟨before, after ++ more, by simp, hb⟩

/-- A typed path that comes early is answered for from then on. -/
theorem lookup_of_early {paths : List TypePath} (he : Early paths path) {leaf : Leaf}
    (hl : hints.lookup path = some leaf) :
    (hints.noteAll .empty paths).lookup path = some leaf := by
  obtain ⟨before, after, rfl, hb⟩ := he
  rw [noteAll_append, noteAll_cons]
  refine lookup_mono (le_noteAll _ _ _) ?_
  have hexp := explained_noteAll hints before
  generalize hints.noteAll .empty before = records at hexp ⊢
  rcases note_cases hints records path with ⟨hs, hsame⟩ | ⟨-, hrec⟩
  · rw [hsame]
    rcases hs with rfl | ⟨hint, hat⟩ | ⟨shorter, value, ha, hleaf⟩
    · simp [lookup, Hint.Entries.lookup] at hl
    · have hacc := hexp path hint hat
      cases hint with
      | leaf value =>
        have hval : some value = some leaf := hacc.2.symm.trans hl
        cases hval
        exact Hint.Entries.lookup_eq_some_iff.2 ⟨path, List.prefix_refl path, hat⟩
      | unknown =>
        rw [hacc.2] at hl
        cases hl
      | table entries =>
        -- a table would have come from a path beyond this one
        obtain ⟨longer, hm, ha⟩ := hacc
        exact absurd ha (hb longer hm)
    · have hval := Hint.Entries.lookup_longer ha.1 (hexp shorter _ hleaf).2
      have heq : some value = some leaf := hval.symm.trans hl
      cases heq
      exact Hint.Entries.lookup_eq_some_iff.2 ⟨shorter, ha.1, hleaf⟩
  · have hat := Hint.Entries.at?_record (entries_of_record? hrec)
    rw [hl] at hat
    exact Hint.Entries.lookup_eq_some_iff.2 ⟨path, List.prefix_refl path, hat⟩

/-- A leaf stands only where its path came early. -/
theorem early_of_leaf {paths : List TypePath} {leaf : Leaf}
    (h : (hints.noteAll .empty paths).at? path = some (.leaf leaf)) : Early paths path := by
  induction paths using List.reverseRecOn with
  | nil => cases path <;> cases h
  | append_singleton paths new ih =>
    rw [noteAll_append] at h
    change (hints.note (hints.noteAll .empty paths) new).at? path = _ at h
    rcases note_cases hints (hints.noteAll .empty paths) new with ⟨-, hsame⟩ | ⟨hfree, hrec⟩
    · rw [hsame] at h
      exact (ih h).append [new]
    · have hentries := entries_of_record? hrec
      rcases Hint.Entries.record_cases hentries path with
        ⟨-, hsame⟩ | ⟨rest, rfl, -, hat⟩ | ⟨-, -, nested, hat⟩
      · rw [at?, hsame] at h
        exact (ih h).append [new]
      · rw [at?, hat] at h
        cases rest with
        | cons name rest =>
          rw [sub?_ofLeaf?] at h
          cases h
        | nil =>
          -- the path was free, so nothing beyond it can have been noted
          have hne : new ≠ [] := Hint.Entries.ne_nil_of_at? (Hint.Entries.at?_record hentries)
          refine ⟨paths, [], by rw [List.append_nil], fun other hm ha => hfree ?_⟩
          rw [List.append_nil] at ha
          exact (settled_noteAll hm ha.ne_nil).of_above hne ha
      · rw [at?, hat] at h
        cases h

/-- **What records answer.** They know the type of a path exactly if the hints do, and a typed path
at or above it came early. -/
theorem lookup_noteAll {paths : List TypePath} {leaf : Leaf} :
    (hints.noteAll .empty paths).lookup path = some leaf ↔
      hints.lookup path = some leaf ∧
        ∃ shorter, shorter <+: path ∧ hints.lookup shorter ≠ none ∧ Early paths shorter := by
  have hexp := explained_noteAll hints paths
  constructor
  · intro h
    obtain ⟨shorter, hs, hleaf⟩ := Hint.Entries.lookup_eq_some_iff.1 h
    refine ⟨lookup_of_explained hexp h, shorter, hs, ?_, early_of_leaf hleaf⟩
    rw [(hexp shorter _ hleaf).2]
    exact Option.some_ne_none leaf
  · rintro ⟨hl, shorter, hs, hsome, he⟩
    obtain ⟨value, hv⟩ := Option.ne_none_iff_exists'.1 hsome
    have heq : some value = some leaf := (Hint.Entries.lookup_longer hs hv).symm.trans hl
    cases heq
    exact Hint.Entries.lookup_longer hs (lookup_of_early he hv)

end HintTable

end SwiftScribe
