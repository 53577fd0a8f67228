import SwiftScribe.Proofs.Edits

/-!
# Merging record trees

A record tree is known by the shapes of its entries: what stands at each path, without what is below
it. In these terms merging is decided path by path. Where a leaf of the first tree answers, nothing
changes; everywhere else the two shapes decide, and only a table takes the place of what is not known.

* `HintTable.ext_shapeAt?`: **a table is known by its shapes.**
* `HintTable.shapeAt?_merge`: **merging, path by path.**
* `HintTable.merge_laws`: the empty table is neutral, a second merge of the same trees changes nothing,
  answers come from one of the two trees and stay if the first one gave them, and no entry is lost
  except below a leaf.
-/

namespace SwiftScribe

namespace Hint

/-! ## Shapes -/

/-- **A hint without what is below it.** -/
inductive Shape where
  | unknown
  | leaf (value : Leaf)
  | table
deriving DecidableEq

def shape : Hint → Shape
  | .unknown => .unknown
  | .leaf value => .leaf value
  | .table _ => .table

/-- The shape at the end of a path that starts at a hint. -/
def shapeAt? (hint : Hint) (path : TypePath) : Option Shape := (sub? path hint).map shape

/-- **The shape of the entry at a path**, if there is one. -/
def Entries.shapeAt? (entries : Entries) (path : TypePath) : Option Shape :=
  (entries.at? path).map shape

theorem Entries.shapeAt?_cons (entries : Entries) (name : String) (rest : TypePath) :
    entries.shapeAt? (name :: rest) = (entries.get? name).bind (·.shapeAt? rest) := by
  simp only [shapeAt?, at?]
  cases entries.get? name <;> rfl

theorem Entries.mem_of_get? {entries : Entries} {name : String} {hint : Hint}
    (h : entries.get? name = some hint) : (name, hint) ∈ entries := by
  induction entries with
  | nil => cases h
  | cons head rest ih =>
    obtain ⟨key, value⟩ := head
    rw [get?_cons] at h
    split at h
    · rename_i hname
      cases h
      rw [hname]
      exact List.mem_cons_self
    · exact List.mem_cons_of_mem _ (ih h)

mutual
/-- **A hint is known by the shapes below it.** -/
theorem eq_of_shapeAt? : (hint : Hint) → hint.Ordered → ∀ other : Hint, other.Ordered →
    (∀ path, hint.shapeAt? path = other.shapeAt? path) → hint = other
  | .unknown, _, other, _, h => by
    cases other with
    | unknown => rfl
    | leaf value => cases h []
    | table entries => cases h []
  | .leaf value, _, other, _, h => by
    cases other with
    | unknown => cases h []
    | leaf value' => cases h []; rfl
    | table entries => cases h []
  | .table entries, ordered, other, ordered', h => by
    cases other with
    | unknown => cases h []
    | leaf value => cases h []
    | table entries' =>
      refine congrArg Hint.table (Entries.ext_get? ordered ordered' fun name => ?_)
      have hname : ∀ path, (Entries.get? entries name).bind (·.shapeAt? path) =
          (Entries.get? entries' name).bind (·.shapeAt? path) := fun path => by
        rw [← Entries.shapeAt?_cons, ← Entries.shapeAt?_cons]
        exact h (name :: path)
      cases hg : Entries.get? entries name with
      | none =>
        cases hg' : Entries.get? entries' name with
        | none => rfl
        | some found' =>
          rw [hg, hg'] at hname
          cases hname []
      | some found =>
        cases hg' : Entries.get? entries' name with
        | none =>
          rw [hg, hg'] at hname
          cases hname []
        | some found' =>
          rw [hg, hg'] at hname
          exact congrArg some (eq_of_shapeAt?_of_mem entries ordered _ (Entries.mem_of_get? hg)
            found' (ordered'.of_get? hg') hname)

theorem eq_of_shapeAt?_of_mem : (entries : Entries) → OrderedEntries entries →
    ∀ entry ∈ entries, ∀ other : Hint, other.Ordered →
      (∀ path, entry.2.shapeAt? path = other.shapeAt? path) → entry.2 = other
  | [], _, _, hm, _, _, _ => absurd hm List.not_mem_nil
  | (_, hint) :: rest, ⟨_, here, tail⟩, entry, hm, other, ordered', h => by
    rcases List.mem_cons.1 hm with rfl | hm
    · exact eq_of_shapeAt? hint here other ordered' h
    · exact eq_of_shapeAt?_of_mem rest tail entry hm other ordered' h
end

/-! ## Merging, path by path -/

namespace Shape

/-- What becomes of the shape at a path when another one comes in: nothing known gives way to a table. -/
def merged : Option Shape → Option Shape → Option Shape
  | none, incoming => incoming
  | some .unknown, some .table => some .table
  | existing, _ => existing

theorem merged_none (existing : Option Shape) : merged existing none = existing := by
  rcases existing with - | - | - | - <;> rfl

/-- Where nothing comes in, nothing changes. -/
theorem unmerged (answered : Bool) (existing : Option Shape) :
    (if answered then existing else merged existing none) = existing := by
  rw [merged_none, ite_self]

theorem merged_self (existing : Option Shape) : merged existing existing = existing := by
  rcases existing with - | - | - | - <;> rfl

/-- What has come in already changes nothing any more. -/
theorem merged_merged_right (existing incoming : Option Shape) :
    merged (merged existing incoming) incoming = merged existing incoming := by
  rcases existing with - | - | - | - <;> rcases incoming with - | - | - | - <;> rfl

theorem merged_merged_left (existing incoming : Option Shape) :
    merged existing (merged existing incoming) = merged existing incoming := by
  rcases existing with - | - | - | - <;> rcases incoming with - | - | - | - <;> rfl

theorem merged_ne_none {incoming : Shape} (existing : Option Shape) :
    merged existing (some incoming) ≠ none := by
  rcases existing with - | - | - | - <;> rcases incoming with - | - | - <;> simp [merged]

end Shape

theorem Entries.shapeAt?_merged (entries : Entries) {incoming : Entries}
    (ho : OrderedEntries incoming) (path : TypePath) :
    shapeAt? (mergedEntries entries incoming) path =
      if (entries.lookup path).isSome then entries.shapeAt? path
      else Shape.merged (entries.shapeAt? path) (incoming.shapeAt? path) := by
  induction path generalizing entries incoming with
  | nil => rfl
  | cons name rest ih =>
    simp only [shapeAt?_cons, get?_merged entries ho, lookup]
    cases hi : incoming.get? name with
    | none => exact (Shape.unmerged _ _).symm
    | some hint =>
      cases he : entries.get? name with
      | none =>
        -- nothing is there, so what comes in stands as it is
        have hnew : merged none hint = hint := by cases hint <;> rfl
        simp [hnew, Shape.merged]
      | some existing =>
        cases existing with
        | leaf value =>
          have hold : merged (some (.leaf value)) hint = .leaf value := by cases hint <;> rfl
          simp [hold]
        | unknown => cases hint <;> cases rest <;> rfl
        | table nested =>
          cases rest with
          | nil => cases hint <;> rfl
          | cons next tail =>
            cases hint with
            | table inner => exact ih nested (ho.of_get? hi)
            | unknown => exact (Shape.unmerged _ _).symm
            | leaf value => exact (Shape.unmerged _ _).symm

end Hint

namespace HintTable

/-- **The shape of the entry at a path**, if there is one. -/
def shapeAt? (table : HintTable) (path : TypePath) : Option Hint.Shape :=
  (table.at? path).map Hint.shape

variable {table other : HintTable} {path : TypePath}

/-- **A table is known by its shapes.** -/
theorem ext_shapeAt? (h : ∀ path, table.shapeAt? path = other.shapeAt? path) : table = other := by
  obtain ⟨entries, ordered⟩ := table
  obtain ⟨entries', ordered'⟩ := other
  have htable : Hint.table entries = .table entries' := by
    refine Hint.eq_of_shapeAt? (.table entries) ordered (.table entries') ordered' fun path => ?_
    cases path with
    | nil => rfl
    | cons name rest => exact h (name :: rest)
  cases htable
  rfl

/-- **Merging, path by path.** -/
theorem shapeAt?_merge (table other : HintTable) (path : TypePath) :
    (table.merge other).shapeAt? path =
      if (table.lookup path).isSome then table.shapeAt? path
      else Hint.Shape.merged (table.shapeAt? path) (other.shapeAt? path) :=
  Hint.Entries.shapeAt?_merged table.entries other.ordered path

/-- Where the first tree gives no answer, the two shapes decide. -/
theorem shapeAt?_merge_of_lookup (h : table.lookup path = none) (other : HintTable) :
    (table.merge other).shapeAt? path =
      Hint.Shape.merged (table.shapeAt? path) (other.shapeAt? path) := by
  rw [shapeAt?_merge, h]
  rfl

/-- Where the first tree gives an answer, nothing changes. -/
theorem shapeAt?_merge_of_answer {leaf : Leaf} (h : table.lookup path = some leaf)
    (other : HintTable) : (table.merge other).shapeAt? path = table.shapeAt? path := by
  rw [shapeAt?_merge, h]
  rfl

/-! ## The laws -/

theorem empty_merge (table : HintTable) : HintTable.empty.merge table = table := by
  refine ext_shapeAt? fun path => ?_
  have hnone : HintTable.empty.lookup path = none := by cases path <;> rfl
  have hfree : HintTable.empty.shapeAt? path = none := by cases path <;> rfl
  rw [shapeAt?_merge_of_lookup hnone, hfree]
  rfl

theorem merge_self (table : HintTable) : table.merge table = table := by
  refine ext_shapeAt? fun path => ?_
  cases hl : table.lookup path with
  | some leaf => exact shapeAt?_merge_of_answer hl table
  | none => rw [shapeAt?_merge_of_lookup hl, Hint.Shape.merged_self]

/-- Merging the second tree again changes nothing. -/
theorem merge_merge_right (table other : HintTable) :
    (table.merge other).merge other = table.merge other := by
  refine ext_shapeAt? fun path => ?_
  cases hl : (table.merge other).lookup path with
  | some leaf => exact shapeAt?_merge_of_answer hl other
  | none =>
    have hfirst : table.lookup path = none := by
      refine Option.eq_none_iff_forall_ne_some.2 fun leaf h => ?_
      rw [lookup_mono (le_merge table other) h] at hl
      cases hl
    rw [shapeAt?_merge_of_lookup hl, shapeAt?_merge_of_lookup hfirst,
      Hint.Shape.merged_merged_right]

/-- Merging the first tree with the outcome changes nothing. -/
theorem merge_merge_left (table other : HintTable) :
    table.merge (table.merge other) = table.merge other := by
  refine ext_shapeAt? fun path => ?_
  cases hl : table.lookup path with
  | some leaf => rw [shapeAt?_merge_of_answer hl, shapeAt?_merge_of_answer hl]
  | none =>
    rw [shapeAt?_merge_of_lookup hl, shapeAt?_merge_of_lookup hl, Hint.Shape.merged_merged_left]

theorem shapeAt?_ne_none_iff : table.shapeAt? path ≠ none ↔ ∃ hint, table.at? path = some hint := by
  unfold shapeAt?
  cases table.at? path <;> simp

/-- **An entry of the second tree is kept exactly if the first one has no leaf above it.** -/
theorem entry_merge_iff {hint : Hint} (h : other.at? path = some hint) :
    (∃ kept, (table.merge other).at? path = some kept) ↔
      ∀ shorter leaf, shorter.Above path → table.at? shorter ≠ some (.leaf leaf) := by
  constructor
  · rintro ⟨kept, hkept⟩ shorter leaf ha hleaf
    -- the leaf is still there, and nothing stands below a leaf
    have hstill := at?_leaf_mono (le_merge table other) hleaf
    obtain ⟨nested, htable⟩ :=
      Hint.Entries.table_of_above ha (Hint.Entries.ne_nil_of_at? hleaf) hkept
    cases hstill.symm.trans htable
  · intro hclear
    cases hl : table.lookup path with
    | none =>
      rw [← shapeAt?_ne_none_iff, shapeAt?_merge_of_lookup hl, shapeAt?, shapeAt?, h]
      exact Hint.Shape.merged_ne_none _
    | some leaf =>
      obtain ⟨shorter, hs, hleaf⟩ := Hint.Entries.lookup_eq_some_iff.1 hl
      have hsame : shorter = path := by_contra fun hne => hclear shorter leaf ⟨hs, hne⟩ hleaf
      subst hsame
      obtain ⟨later, hlater, -⟩ := le_merge table other shorter _ hleaf
      exact ⟨later, hlater⟩

/-- **The laws of merging.** The empty table is neutral on either side. A tree merged with itself, or
merged with another one a second time from either side, does not change. An answer of the first tree
stays, and every answer is one of the two trees'. Every entry of the first tree is kept, and every
entry of the second one that is not below a leaf of the first. -/
theorem merge_laws (table other : HintTable) :
    table.merge .empty = table ∧ HintTable.empty.merge table = table ∧ table.merge table = table ∧
      (table.merge other).merge other = table.merge other ∧
      table.merge (table.merge other) = table.merge other ∧
      ∀ path,
        (∀ leaf, table.lookup path = some leaf → (table.merge other).lookup path = some leaf) ∧
        (∀ leaf, (table.merge other).lookup path = some leaf →
          table.lookup path = some leaf ∨ other.lookup path = some leaf) ∧
        (∀ hint, table.at? path = some hint → ∃ kept, (table.merge other).at? path = some kept) ∧
        (∀ hint, other.at? path = some hint →
          ((∃ kept, (table.merge other).at? path = some kept) ↔
            ∀ shorter leaf, shorter.Above path → table.at? shorter ≠ some (.leaf leaf))) := by
  refine ⟨rfl, empty_merge table, merge_self table, merge_merge_right table other,
    merge_merge_left table other, fun path => ⟨fun leaf h => ?_, fun leaf h => ?_, fun hint h => ?_,
      fun hint h => entry_merge_iff h⟩⟩
  · exact lookup_mono (le_merge table other) h
  · exact Hint.Entries.lookup_merged other.ordered h
  · obtain ⟨later, hlater, -⟩ := le_merge table other path hint h
    exact ⟨later, hlater⟩

end HintTable

end SwiftScribe
