import Mathlib.Order.Basic
import SwiftScribe.Proofs.Follows

/-!
# Hint trees by their paths

A hint tree is known by what stands at each path (`Hint.Entries.at?`). In these terms:

* `lookup_eq_some_iff`: a leaf answers for a path exactly if it stands at the path or above it.
* `record?_eq_none_iff`: a path cannot be recorded exactly if it is settled, by an entry of its own
  or by a leaf above it. What was to be recorded has no say in this.
* `record_cases`: **all that recording does.** The new hint stands at its path, the paths above
  become tables, and everything else stays.
-/

namespace SwiftScribe

namespace Hint

/-! ## Entries by their paths -/

/-- What stands at the end of a path that starts at a hint. -/
def sub? : TypePath → Hint → Option Hint
  | [], hint => some hint
  | name :: rest, .table entries => (Entries.get? entries name).bind (sub? rest)
  | _ :: _, _ => none

theorem sub?_append (path rest : TypePath) (hint : Hint) :
    sub? (path ++ rest) hint = (sub? path hint).bind (sub? rest) := by
  induction path generalizing hint with
  | nil => rfl
  | cons name tail ih =>
    cases hint with
    | unknown => rfl
    | leaf value => rfl
    | table entries =>
      simp only [List.cons_append, sub?]
      cases Entries.get? entries name with
      | none => rfl
      | some next => exact ih next

namespace Entries

/-- **The entry at a path**, if there is one. -/
def at? (entries : Entries) : TypePath → Option Hint
  | [] => none
  | name :: rest => (entries.get? name).bind (sub? rest)

theorem get?_cons (key : String) (value : Hint) (rest : Entries) (name : String) :
    get? ((key, value) :: rest) name = if name = key then some value else get? rest name := by
  unfold get?
  rw [List.lookup_cons]
  split
  · rename_i h
    rw [if_pos (by simpa using h)]
  · rename_i h
    rw [if_neg (by simpa using h)]

theorem get?_set (entries : Entries) (name other : String) (hint : Hint) :
    (entries.set name hint).get? other =
      if other = name then some hint else entries.get? other := by
  induction entries with
  | nil => rw [set, get?_cons]
  | cons head rest ih =>
    obtain ⟨key, value⟩ := head
    unfold set
    split
    · rw [get?_cons]
    · split
      · rename_i hlt
        rw [get?_cons, get?_cons, ih]
        -- the place of the name is further down, so this key is another one
        have hne : key ≠ name := by grind
        grind
      · have hkey : name = key := by grind
        subst hkey
        rw [get?_cons, get?_cons]
        grind

variable {entries : Entries} {path : TypePath}

theorem at?_append (entries : Entries) (hp : path ≠ []) (rest : TypePath) :
    entries.at? (path ++ rest) = (entries.at? path).bind (sub? rest) := by
  cases path with
  | nil => exact absurd rfl hp
  | cons name tail =>
    simp only [List.cons_append, at?]
    cases entries.get? name with
    | none => rfl
    | some next => exact sub?_append tail rest next

theorem ne_nil_of_at? {hint : Hint} (h : entries.at? path = some hint) : path ≠ [] := by
  rintro rfl
  cases h

/-- An entry has tables above it. -/
theorem table_of_above {shorter : TypePath} (ha : shorter.Above path) (hs : shorter ≠ [])
    {hint : Hint} (h : entries.at? path = some hint) :
    ∃ nested, entries.at? shorter = some (.table nested) := by
  obtain ⟨⟨rest, rfl⟩, hne⟩ := ha
  rw [at?_append entries hs] at h
  obtain ⟨top, htop, h⟩ := Option.bind_eq_some_iff.1 h
  cases rest with
  | nil => exact absurd (List.append_nil _).symm hne
  | cons name tail =>
    cases top with
    | table nested => exact ⟨nested, htop⟩
    | unknown => cases h
    | leaf value => cases h

/-- Beyond a name, the entries are those of the table that may grow there. -/
theorem at?_of_nested {first : String} {nested : Entries} (h : entries.nested? first = some nested)
    {rest : TypePath} (hr : rest ≠ []) : entries.at? (first :: rest) = nested.at? rest := by
  obtain ⟨name, tail, rfl⟩ := List.exists_cons_of_ne_nil hr
  unfold nested? at h
  simp only [at?]
  cases hg : entries.get? first with
  | none =>
    rw [hg] at h
    cases h
    rfl
  | some hint =>
    rw [hg] at h
    cases hint with
    | unknown => cases h; rfl
    | leaf value => cases h
    | table inner => cases h; rfl

/-! ## Looking up -/

/-- **A leaf answers for a path exactly if it stands at the path or above it.** -/
theorem lookup_eq_some_iff {leaf : Leaf} :
    entries.lookup path = some leaf ↔
      ∃ shorter, shorter <+: path ∧ entries.at? shorter = some (.leaf leaf) := by
  induction path generalizing entries with
  | nil =>
    refine ⟨fun h => by simp [lookup] at h, ?_⟩
    rintro ⟨shorter, hs, h⟩
    rw [List.prefix_nil.1 hs] at h
    cases h
  | cons first rest ih =>
    constructor
    · intro h
      simp only [lookup] at h
      split at h
      · rename_i nested hg
        obtain ⟨shorter, hs, h⟩ := ih.1 h
        have hne := ne_nil_of_at? h
        refine ⟨first :: shorter, List.cons_prefix_cons.2 ⟨rfl, hs⟩, ?_⟩
        have hnested : entries.nested? first = some nested := by simp only [nested?, hg]
        rw [at?_of_nested hnested hne, h]
      · rename_i value hg
        cases h
        exact ⟨[first], by simp, by simp [at?, hg, sub?]⟩
      · cases h
      · cases h
    · rintro ⟨shorter, hs, h⟩
      obtain ⟨name, tail, rfl⟩ := List.exists_cons_of_ne_nil (ne_nil_of_at? h)
      obtain ⟨rfl, ht⟩ := List.cons_prefix_cons.1 hs
      simp only [at?] at h
      obtain ⟨hint, hg, h⟩ := Option.bind_eq_some_iff.1 h
      simp only [lookup, hg]
      cases hint with
      | unknown => cases tail <;> cases h
      | leaf value => cases tail <;> cases h; rfl
      | table nested =>
        cases tail with
        | nil => cases h
        | cons next tail => exact ih.2 ⟨next :: tail, ht, h⟩

/-- A leaf answers also for longer paths. -/
theorem lookup_longer {longer : TypePath} (hp : path <+: longer) {leaf : Leaf}
    (h : entries.lookup path = some leaf) : entries.lookup longer = some leaf := by
  obtain ⟨shorter, hs, h⟩ := lookup_eq_some_iff.1 h
  exact lookup_eq_some_iff.2 ⟨shorter, hs.trans hp, h⟩

/-- An entry that is no leaf answers for nothing. -/
theorem lookup_eq_none_of_at? {hint : Hint} (h : entries.at? path = some hint)
    (hl : ∀ leaf, hint ≠ .leaf leaf) : entries.lookup path = none := by
  cases hlook : entries.lookup path with
  | none => rfl
  | some leaf =>
    obtain ⟨shorter, hs, hleaf⟩ := lookup_eq_some_iff.1 hlook
    by_cases heq : shorter = path
    · subst heq
      rw [h] at hleaf
      exact absurd (Option.some.inj hleaf) (hl leaf)
    · obtain ⟨nested, htable⟩ := table_of_above ⟨hs, heq⟩ (ne_nil_of_at? hleaf) h
      rw [hleaf] at htable
      cases htable

/-! ## Recording -/

/-- **A path is settled**: it has an entry, or a leaf stands above it. -/
def Settled (entries : Entries) (path : TypePath) : Prop :=
  (∃ hint, entries.at? path = some hint) ∨
    ∃ shorter leaf, shorter.Above path ∧ entries.at? shorter = some (.leaf leaf)

theorem nested?_eq_none_iff {first : String} :
    entries.nested? first = none ↔ ∃ leaf, entries.get? first = some (.leaf leaf) := by
  unfold nested?
  split <;> simp_all

theorem settled_cons_iff {first : String} {nested : Entries}
    (h : entries.nested? first = some nested) {rest : TypePath} (hr : rest ≠ []) :
    entries.Settled (first :: rest) ↔ nested.Settled rest := by
  unfold Settled
  rw [at?_of_nested h hr]
  refine or_congr_right ⟨?_, ?_⟩
  · rintro ⟨shorter, leaf, ha, hleaf⟩
    obtain ⟨name, tail, rfl⟩ := List.exists_cons_of_ne_nil (ne_nil_of_at? hleaf)
    obtain ⟨rfl, -⟩ := List.cons_prefix_cons.1 ha.1
    by_cases htail : tail = []
    · -- a leaf right under the name would keep a table from growing there
      subst htail
      have hg : entries.get? name = some (.leaf leaf) := by simpa [at?, sub?] using hleaf
      rw [nested?_eq_none_iff.2 ⟨leaf, hg⟩] at h
      cases h
    · rw [at?_of_nested h htail] at hleaf
      exact ⟨tail, leaf, TypePath.above_cons_iff.1 ha, hleaf⟩
  · rintro ⟨shorter, leaf, ha, hleaf⟩
    refine ⟨first :: shorter, leaf, TypePath.above_cons_iff.2 ha, ?_⟩
    rw [at?_of_nested h (ne_nil_of_at? hleaf), hleaf]

/-- **A path cannot be recorded exactly if it is settled.** -/
theorem record?_eq_none_iff {hint : Hint} :
    record? path hint entries = none ↔ path = [] ∨ entries.Settled path := by
  fun_induction record? path hint entries with
  | case1 => simp
  | case2 last hint entries hsome =>
    obtain ⟨found, hfound⟩ := Option.isSome_iff_exists.1 hsome
    have hat : entries.at? [last] = some found := by simp [at?, hfound, sub?]
    simp only [reduceCtorEq, false_or, true_iff]
    exact .inl ⟨found, hat⟩
  | case3 last hint entries hnone =>
    have hget : entries.get? last = none := by simpa using hnone
    simp only [reduceCtorEq, false_or, false_iff]
    rintro (⟨found, hat⟩ | ⟨shorter, leaf, ha, hleaf⟩)
    · simp [at?, hget] at hat
    · obtain ⟨name, tail, rfl⟩ := List.exists_cons_of_ne_nil (ne_nil_of_at? hleaf)
      have := ha.length_lt
      simp at this
  | case4 first rest hint entries hrest ih =>
    cases hn : entries.nested? first with
    | none =>
      obtain ⟨leaf, hg⟩ := nested?_eq_none_iff.1 hn
      have hat : entries.at? [first] = some (.leaf leaf) := by simp [at?, hg, sub?]
      simp only [Option.bind_eq_bind, Option.bind_none, reduceCtorEq, false_or, true_iff]
      exact .inr ⟨[first], leaf, TypePath.singleton_above hrest, hat⟩
    | some nested =>
      have hiff := (ih nested).trans (or_iff_right hrest)
      rw [settled_cons_iff hn hrest, ← hiff]
      simp only [Option.bind_eq_bind, Option.bind_some, reduceCtorEq, false_or]
      cases record? rest hint nested <;> simp

theorem at?_set_table (entries : Entries) (first : String) (grown : Entries) {rest : TypePath}
    (hr : rest ≠ []) : (entries.set first (.table grown)).at? (first :: rest) = grown.at? rest := by
  refine at?_of_nested ?_ hr
  unfold nested?
  rw [get?_set, if_pos rfl]

theorem at?_set_other (entries : Entries) {first name : String} (hne : name ≠ first) (hint : Hint)
    (rest : TypePath) :
    (entries.set first hint).at? (name :: rest) = entries.at? (name :: rest) := by
  simp only [at?, get?_set, if_neg hne]

/-- **All that recording does**: at another path the entry stays, or it belongs to the new hint, or
it is a table above the new hint, where no leaf was. -/
theorem record_cases {hint : Hint} {result : Entries} (h : record? path hint entries = some result)
    (other : TypePath) :
    (¬ path <+: other ∧ result.at? other = entries.at? other) ∨
      (∃ rest, other = path ++ rest ∧ entries.at? other = none ∧
        result.at? other = sub? rest hint) ∨
      (other.Above path ∧ (∀ leaf, entries.at? other ≠ some (.leaf leaf)) ∧
        ∃ nested, result.at? other = some (.table nested)) := by
  cases other with
  | nil =>
    refine .inl ⟨fun hp => ?_, rfl⟩
    rw [List.prefix_nil.1 hp] at h
    cases h
  | cons name tail =>
    fun_induction record? path hint entries generalizing result name tail with
    | case1 => cases h
    | case2 => cases h
    | case3 last hint entries hnone =>
      cases h
      have hget : entries.get? last = none := by simpa using hnone
      by_cases hname : name = last
      · subst hname
        refine .inr (.inl ⟨tail, rfl, ?_, ?_⟩)
        · simp only [at?, hget, Option.bind_none]
        · simp only [at?, get?_set, if_true, Option.bind_some]
      · exact .inl ⟨fun hp => hname (List.cons_prefix_cons.1 hp).1.symm,
          at?_set_other entries hname hint tail⟩
    | case4 first rest hint entries hrest ih =>
      obtain ⟨nested, hn, h⟩ := Option.bind_eq_some_iff.1 h
      obtain ⟨grown, hgrown, h⟩ := Option.bind_eq_some_iff.1 h
      cases h
      by_cases hname : name = first
      · subst hname
        cases tail with
        | nil =>
          -- the name itself becomes a table
          refine .inr (.inr ⟨TypePath.singleton_above hrest, ?_, grown, ?_⟩)
          · intro leaf hat
            have hg : entries.get? name = some (.leaf leaf) := by simpa [at?, sub?] using hat
            rw [nested?_eq_none_iff.2 ⟨leaf, hg⟩] at hn
            cases hn
          · simp [at?, get?_set, sub?]
        | cons next tail =>
          rw [at?_set_table entries name grown (List.cons_ne_nil _ _),
            at?_of_nested hn (List.cons_ne_nil _ _)]
          rcases ih nested hgrown next tail with
            ⟨hp, hsame⟩ | ⟨beyond, ho, hnone, hsub⟩ | ⟨ha, hleaf, htable⟩
          · exact .inl ⟨fun h => hp (List.cons_prefix_cons.1 h).2, hsame⟩
          · exact .inr (.inl ⟨beyond, by rw [ho, List.cons_append], hnone, hsub⟩)
          · exact .inr (.inr ⟨TypePath.above_cons_iff.2 ha, hleaf, htable⟩)
      · exact .inl ⟨fun hp => hname (List.cons_prefix_cons.1 hp).1.symm,
          at?_set_other entries hname _ tail⟩

/-- What is recorded stands at its path. -/
theorem at?_record {hint : Hint} {result : Entries} (h : record? path hint entries = some result) :
    result.at? path = some hint := by
  rcases record_cases h path with ⟨hp, -⟩ | ⟨rest, hrest, -, hsub⟩ | ⟨ha, -⟩
  · exact absurd (List.prefix_refl path) hp
  · have hnil : rest = [] := by simpa using hrest
    rw [hsub, hnil, sub?]
  · exact absurd rfl ha.2

end Entries

end Hint

end SwiftScribe
