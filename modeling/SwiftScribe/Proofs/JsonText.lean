import Mathlib.Data.List.Forall2
import SwiftScribe.Json.Printer
import SwiftScribe.Json.Reader
import SwiftScribe.Proofs.Culprit

/-!
# JSON text reads back

What the printer writes is what the reader reads, for values without numbers, whatever characters
their strings hold. The reader counts open arrays and objects, so a value reads back only if it is
no deeper than the reader allows; and nothing it reads is deeper.

* `readString_escaped`: the contents of a string read back.
* `readContainer_bracketed`: **an array or an object reads back if its members do**, however they are
  laid out in lines.
* `readFirst_pretty`: a value without numbers reads back from its lines.
* `depth_of_read`: what is read is no deeper than the reader allows.
-/

namespace SwiftScribe.Json

/-! ## Strings -/

theorem hexValue?_digitChar : ∀ n < 16, hexValue? (Nat.digitChar n) = some n := by decide

theorem readString_escapeChar (c : Char) (rest : List Char) :
    readString (escapeChar c ++ rest) = consChar c (readString rest) := by
  unfold escapeChar
  split
  · simp [readString, escaped?]
  · simp [readString, escaped?]
  · simp [readString, escaped?]
  · simp [readString, escaped?]
  · simp [readString, escaped?]
  · simp [readString, escaped?]
  · simp [readString, escaped?]
  · rename_i hquote hbackslash _ _ _ _ _
    split
    · rename_i hcontrol
      -- a control character without a letter of its own is spelled by its code
      have hhigh := hexValue?_digitChar (c.toNat / 16) (by omega)
      have hlow := hexValue?_digitChar (c.toNat % 16) (by omega)
      have hunit : hexUnit? '0' '0' (Nat.digitChar (c.toNat / 16)) (Nat.digitChar (c.toNat % 16)) =
          some c.toNat := by
        simp only [hexUnit?, hhigh, hlow, show hexValue? '0' = some 0 from rfl]
        simp
        omega
      simp only [List.cons_append, List.nil_append, readString, hunit]
      rw [if_pos (by omega), Char.ofNat_toNat]
    · rename_i hplain
      rw [List.singleton_append, readString.eq_7 c rest hquote
        (fun _ _ _ _ _ h => absurd h hbackslash) (fun _ h => absurd h hbackslash)
        (fun h => absurd h hbackslash) (fun _ _ h => absurd h hbackslash), if_neg hplain]

/-- **The contents of a string read back.** -/
theorem readString_escaped (cs rest : List Char) :
    readString (cs.flatMap escapeChar ++ '"' :: rest) = .ok (cs, rest) := by
  induction cs with
  | nil => simp [readString]
  | cons c cs ih => simp [readString_escapeChar, ih, consChar, Except.map]

theorem toList_quote (s : String) :
    (quote s).toList = '"' :: (s.toList.flatMap escapeChar ++ ['"']) := by
  simp [quote]

/-! ## Blanks -/

theorem skipBlanks_append {blanks : List Char} (hb : ∀ c ∈ blanks, isBlank c) {c : Char}
    (hc : isBlank c = false) (rest : List Char) :
    skipBlanks (blanks ++ c :: rest) = c :: rest := by
  unfold skipBlanks
  induction blanks with
  | nil => simp [hc]
  | cons blank blanks ih =>
    rw [List.cons_append, List.dropWhile_cons_of_pos (hb blank List.mem_cons_self)]
    exact ih fun other hm => hb other (List.mem_cons_of_mem _ hm)

theorem skipBlanks_cons {c : Char} (hc : isBlank c = false) (rest : List Char) :
    skipBlanks (c :: rest) = c :: rest := by
  simp [skipBlanks, hc]

theorem isBlank_of_mem_indent {level : Nat} {c : Char} (h : c ∈ (indent level).toList) :
    isBlank c := by
  rw [indent, String.toList_ofList] at h
  rw [List.eq_of_mem_replicate h]
  rfl

/-! ## Containers -/

/-- **A member of a container reads back from a text**, which starts neither with a blank nor with
the closing bracket. -/
structure Container.Reads {α : Type} (kind : Container α) (text : String) (value : α) : Prop where
  member : ∀ rest, kind.member (text.toList ++ rest) = .ok (value, rest)
  opens : ∃ c cs, text.toList = c :: cs ∧ isBlank c = false ∧ c ≠ kind.close

section Containers

variable {α : Type} {kind : Container α} {limit : Nat}

/-- Members with commas and blanks between them read back. The induction is on the members after the
first one. -/
theorem readMembers_texts (hclose : isBlank kind.close = false) (hcomma : kind.close ≠ ',')
    {between after : List Char} (hb : ∀ c ∈ between, isBlank c) (ha : ∀ c ∈ after, isBlank c)
    {first : String} {value : α} (hf : kind.Reads first value) {others : List String}
    {values : List α} (ho : List.Forall₂ kind.Reads others values) (hl : others.length < limit)
    (rest : List Char) :
    readMembers kind limit (first.toList ++ ((others.flatMap fun text => ',' :: between ++ text.toList)
      ++ (after ++ kind.close :: rest))) = .ok (value :: values, rest) := by
  induction ho generalizing first value limit with
  | nil =>
    obtain ⟨limit, rfl⟩ : ∃ k, limit = k + 1 := ⟨limit - 1, by simp at hl; omega⟩
    simp [readMembers, hf.member, skipBlanks_append ha hclose]
  | @cons second _ others _ hs _ ih =>
    obtain ⟨limit, rfl⟩ : ∃ k, limit = k + 1 := ⟨limit - 1, by simp at hl; omega⟩
    obtain ⟨c, cs, hcs, hblank, hne⟩ := hs.opens
    have hless : others.length < limit := by simpa using hl
    have hrest := ih hs hless
    have hskip := skipBlanks_append hb hblank
    simp only [hcs, List.cons_append] at hrest
    simp only [readMembers, hf.member, List.flatMap_cons, List.cons_append, List.append_assoc, hcs,
      skipBlanks_cons (show isBlank ',' = false from rfl), if_neg hcomma.symm, hskip, if_neg hne,
      if_true]
    simp only [hrest, consMember]

theorem intercalate_cons (separator first : List Char) (others : List (List Char)) :
    separator.intercalate (first :: others) = first ++ others.flatMap (separator ++ ·) := by
  induction others generalizing first with
  | nil => simp
  | cons second others ih =>
    rw [List.intercalate_cons_cons, ih, List.flatMap_cons]
    simp only [List.append_assoc]

/-- The lines between two brackets, as one text after the opening bracket. -/
theorem toList_bracketed (opening closing first : String) (others : List String) (level : Nat) :
    (bracketed opening closing level (first :: others)).toList =
      opening.toList ++ (('\n' :: (indent (level + 1)).toList) ++ (first.toList ++
        ((others.flatMap fun text => ',' :: ('\n' :: (indent (level + 1)).toList) ++ text.toList) ++
          (('\n' :: (indent level).toList) ++ closing.toList)))) := by
  simp only [bracketed, List.isEmpty_cons, Bool.false_eq_true, if_false, String.toList_append,
    String.toList_intercalate, List.map_cons, List.map_map, intercalate_cons, List.flatMap_map,
    Function.comp_def]
  simp

/-- **An array or an object reads back if its members do.** -/
theorem readContainer_bracketed (hclose : isBlank kind.close = false) (hcomma : kind.close ≠ ',')
    {opening closing : String} {bracket : Char} (ho : opening.toList = [bracket])
    (hc : closing.toList = [kind.close]) {texts : List String} {values : List α}
    (h : List.Forall₂ kind.Reads texts values) (hl : texts.length ≤ limit) (level : Nat) :
    ∃ inside, (bracketed opening closing level texts).toList = bracket :: inside ∧
      ∀ rest, readContainer kind limit (inside ++ rest) = .ok (kind.build values, rest) := by
  cases h with
  | nil =>
    refine ⟨[kind.close], by simp [bracketed, ho, hc], fun rest => ?_⟩
    simp [readContainer, skipBlanks_cons hclose]
  | @cons first value others values hf hothers =>
    have htext := toList_bracketed opening closing first others level
    rw [ho, List.singleton_append] at htext
    refine ⟨_, htext, fun rest => ?_⟩
    have hblank (level : Nat) : ∀ c ∈ '\n' :: (indent level).toList, isBlank c := by
      intro c hm
      rcases List.mem_cons.1 hm with rfl | hm
      · rfl
      · exact isBlank_of_mem_indent hm
    obtain ⟨c, cs, hcs, hblank', hne⟩ := hf.opens
    have hmembers := readMembers_texts hclose hcomma (hblank (level + 1)) (hblank level) hf hothers
      (Nat.lt_of_succ_le hl) rest
    rw [hcs] at hmembers
    unfold readContainer
    rw [hcs, hc]
    simp only [List.append_assoc, List.cons_append, List.nil_append] at hmembers ⊢
    have hskip := skipBlanks_append (hblank (level + 1)) hblank'
    simp only [List.cons_append] at hskip
    rw [hskip]
    simp only [if_neg hne, hmembers]

end Containers

/-! ## Values without numbers -/

mutual
/-- **There is no number in the value.** -/
def Worded : Json → Prop
  | .int _ => False
  | .double _ => False
  | .arr items => WordedItems items
  | .obj entries => WordedEntries entries
  | _ => True

/-- There is no number in any item. -/
def WordedItems : List Json → Prop
  | [] => True
  | item :: rest => Worded item ∧ WordedItems rest

/-- There is no number in the value of any entry. -/
def WordedEntries : List (String × Json) → Prop
  | [] => True
  | (_, value) :: rest => Worded value ∧ WordedEntries rest
end

/-- A text starts like a value and reads back as it. -/
structure ReadsAs (reader : Reader Json) (text : String) (value : Json) : Prop where
  read : ∀ rest, reader (text.toList ++ rest) = .ok (value, rest)
  opens : ∃ c cs, text.toList = c :: cs ∧ isBlank c = false ∧ c ≠ ']'

theorem ReadsAs.item {reader : Reader Json} {text : String} {value : Json}
    (h : ReadsAs reader text value) : (Container.array reader).Reads text value :=
  ⟨h.read, h.opens⟩

theorem ReadsAs.entry {reader : Reader Json} {text : String} {value : Json}
    (h : ReadsAs reader text value) (hblank : ∀ cs, reader (' ' :: cs) = reader cs) (key : String) :
    (Container.object reader).Reads (quote key ++ ": " ++ text) (key, value) := by
  have htext : (quote key ++ ": " ++ text).toList =
      '"' :: (key.toList.flatMap escapeChar ++ '"' :: ':' :: ' ' :: text.toList) := by
    simp [toList_quote]
  refine ⟨fun rest => ?_, ⟨_, _, htext, rfl, show '"' ≠ '\x7d' by decide⟩⟩
  rw [htext]
  have hkey := readString_escaped key.toList (':' :: ' ' :: (text.toList ++ rest))
  have hcolon := skipBlanks_cons (show isBlank ':' = false from rfl) (' ' :: (text.toList ++ rest))
  simp only [Container.object, Container.readEntry, List.cons_append, List.append_assoc, hkey, hcolon,
    hblank, h.read, String.ofList_toList]

theorem readValue_blank (limit allowed : Nat) (cs : List Char) :
    readValue limit allowed (' ' :: cs) = readValue limit allowed cs := by
  have hskip : skipBlanks (' ' :: cs) = skipBlanks cs := by simp [skipBlanks, isBlank]
  rw [readValue, readValue, hskip]

theorem readsAs_leaf (limit allowed : Nat) {text : String} (first : Char) (cs : List Char)
    {value : Json} (ht : text.toList = first :: cs) (hf : first ∈ ['n', 't', 'f', '"'])
    (h : ∀ rest, readLeaf first (cs ++ rest) = .ok (value, rest)) :
    ReadsAs (readValue limit allowed) text value := by
  have hblank : ∀ c ∈ ['n', 't', 'f', '"'], isBlank c = false := by simp [isBlank]
  have hopen : ∀ c ∈ ['n', 't', 'f', '"'], ¬ (c = '[' ∨ c = '\x7b') ∧ c ≠ ']' := by simp
  refine ⟨fun rest => ?_, ⟨first, cs, ht, hblank first hf, (hopen first hf).2⟩⟩
  rw [ht, List.cons_append, readValue, skipBlanks_cons (hblank first hf)]
  simp only [if_neg (hopen first hf).1, h]
  rfl

theorem readValue_list (limit allowed : Nat) (cs : List Char) :
    readValue limit (allowed + 1) ('[' :: cs) =
      readContainer (.array (readValue limit allowed)) limit cs := by
  rw [readValue, skipBlanks_cons (show isBlank '[' = false from rfl)]
  simp

theorem readValue_object (limit allowed : Nat) (cs : List Char) :
    readValue limit (allowed + 1) ('\x7b' :: cs) =
      readContainer (.object (readValue limit allowed)) limit cs := by
  rw [readValue, skipBlanks_cons (show isBlank '\x7b' = false from rfl)]
  simp

theorem length_le_flatMap {texts : List String} (line : List Char) {text : String}
    (h : text ∈ texts) :
    text.toList.length ≤ (texts.flatMap fun text => ',' :: line ++ text.toList).length := by
  induction texts with
  | nil => cases h
  | cons first others ih =>
    simp only [List.flatMap_cons, List.length_append, List.length_cons]
    rcases List.mem_cons.1 h with rfl | h
    · omega
    · have := ih h
      omega

/-- A text between brackets is no longer than the whole, and neither is the number of texts. -/
theorem length_le_bracketed (opening closing : String) (level : Nat) (texts : List String) :
    texts.length ≤ (bracketed opening closing level texts).toList.length ∧
      ∀ text ∈ texts,
        text.toList.length ≤ (bracketed opening closing level texts).toList.length := by
  cases texts with
  | nil => simp
  | cons first others =>
    rw [toList_bracketed]
    have hcount : others.length ≤ (others.flatMap fun text =>
        ',' :: ('\n' :: (indent (level + 1)).toList) ++ text.toList).length := by
      induction others with
      | nil => simp
      | cons second others ih =>
        simp only [List.flatMap_cons, List.length_append, List.length_cons]
        omega
    refine ⟨?_, fun text hm => ?_⟩
    · simp only [List.length_append, List.length_cons] at hcount ⊢
      omega
    · rcases List.mem_cons.1 hm with rfl | hm
      · simp only [List.length_append]
        omega
      · have := length_le_flatMap ('\n' :: (indent (level + 1)).toList) hm
        simp only [List.length_append, List.length_cons] at this ⊢
        omega

mutual
/-- **A value without numbers reads back from its lines.** -/
theorem readsAs_prettyAt (limit : Nat) :
    (value : Json) → value.Worded → (level allowed : Nat) → value.depth ≤ allowed →
      (prettyAt level value).toList.length ≤ limit →
      ReadsAs (readValue limit allowed) (prettyAt level value) value
  | .null => fun _ _ allowed _ _ =>
    readsAs_leaf limit allowed 'n' ['u', 'l', 'l'] (by simp [prettyAt, leafText]) (by decide)
      fun _ => rfl
  | .bool true => fun _ _ allowed _ _ =>
    readsAs_leaf limit allowed 't' ['r', 'u', 'e'] (by simp [prettyAt, leafText]) (by decide)
      fun _ => rfl
  | .bool false => fun _ _ allowed _ _ =>
    readsAs_leaf limit allowed 'f' ['a', 'l', 's', 'e'] (by simp [prettyAt, leafText]) (by decide)
      fun _ => rfl
  | .int _ => fun hw => hw.elim
  | .double _ => fun hw => hw.elim
  | .str text => by
    intro _ _ allowed _ _
    refine readsAs_leaf limit allowed _ _ (toList_quote text) (by decide) fun rest => ?_
    simp [readLeaf, readString_escaped, Except.map]
  | .arr items => by
    intro hw level allowed hd hl
    rw [depth] at hd
    obtain ⟨allowed, rfl⟩ : ∃ k, allowed = k + 1 := ⟨allowed - 1, by omega⟩
    obtain ⟨hcount, hlong⟩ := length_le_bracketed "[" "]" level (prettyItems (level + 1) items)
    have hitems := reads_prettyItems limit items hw (level + 1) allowed (by omega)
      fun text hm => Nat.le_trans (hlong text hm) hl
    have hopen : "[".toList = ['['] := by simp
    have hclose : "]".toList = [']'] := by simp
    obtain ⟨inside, htext, hread⟩ := readContainer_bracketed rfl (show ']' ≠ ',' by decide) hopen
      hclose hitems (Nat.le_trans hcount hl) level
    refine ⟨fun rest => ?_, ⟨'[', inside, htext, rfl, by decide⟩⟩
    rw [prettyAt, htext, List.cons_append, readValue_list]
    exact hread rest
  | .obj entries => by
    intro hw level allowed hd hl
    rw [depth] at hd
    obtain ⟨allowed, rfl⟩ : ∃ k, allowed = k + 1 := ⟨allowed - 1, by omega⟩
    obtain ⟨hcount, hlong⟩ :=
      length_le_bracketed "\x7b" "\x7d" level (prettyEntries (level + 1) entries)
    have hentries := reads_prettyEntries limit entries hw (level + 1) allowed (by omega)
      fun text hm => Nat.le_trans (hlong text hm) hl
    have hopen : "\x7b".toList = ['\x7b'] := by simp
    have hclose : "\x7d".toList = ['\x7d'] := by simp
    obtain ⟨inside, htext, hread⟩ := readContainer_bracketed rfl (show '\x7d' ≠ ',' by decide) hopen
      hclose hentries (Nat.le_trans hcount hl) level
    refine ⟨fun rest => ?_, ⟨'\x7b', inside, htext, rfl, by decide⟩⟩
    rw [prettyAt, htext, List.cons_append, readValue_object]
    exact hread rest

theorem reads_prettyItems (limit : Nat) :
    (items : List Json) → WordedItems items → (level allowed : Nat) → depthItems items ≤ allowed →
      (∀ text ∈ prettyItems level items, text.toList.length ≤ limit) →
      List.Forall₂ (Container.array (readValue limit allowed)).Reads (prettyItems level items) items
  | [] => fun _ _ _ _ _ => .nil
  | item :: rest => by
    intro hw level allowed hd hl
    rw [depthItems, Nat.max_le] at hd
    refine .cons (ReadsAs.item ?_) ?_
    · exact readsAs_prettyAt limit item hw.1 level allowed hd.1 (hl _ List.mem_cons_self)
    · exact reads_prettyItems limit rest hw.2 level allowed hd.2
        fun text hm => hl text (List.mem_cons_of_mem _ hm)

theorem reads_prettyEntries (limit : Nat) :
    (entries : List (String × Json)) → WordedEntries entries → (level allowed : Nat) →
      depthEntries entries ≤ allowed →
      (∀ text ∈ prettyEntries level entries, text.toList.length ≤ limit) →
      List.Forall₂ (Container.object (readValue limit allowed)).Reads (prettyEntries level entries)
        entries
  | [] => fun _ _ _ _ _ => .nil
  | (key, value) :: rest => by
    intro hw level allowed hd hl
    rw [depthEntries, Nat.max_le] at hd
    have hentry := hl _ List.mem_cons_self
    simp only [String.toList_append, List.length_append] at hentry
    refine .cons (ReadsAs.entry ?_ (readValue_blank limit allowed) key) ?_
    · exact readsAs_prettyAt limit value hw.1 level allowed hd.1 (by omega)
    · exact reads_prettyEntries limit rest hw.2 level allowed hd.2
        fun text hm => hl text (List.mem_cons_of_mem _ hm)
end

theorem readFirst_pretty {value : Json} (hw : value.Worded) (hd : value.depth ≤ nestingLimit) :
    readFirst value.pretty = .ok (value, []) := by
  have h := (readsAs_prettyAt _ value hw 0 nestingLimit hd (Nat.le_refl _)).read []
  rwa [List.append_nil] at h

theorem read_pretty {value : Json} (hw : value.Worded) (hd : value.depth ≤ nestingLimit) :
    Json.read value.pretty = .ok value.tidy := by
  rw [Json.read, readFirst_pretty hw hd]
  rfl

/-! ## Depth of what is read -/

theorem depth_of_readWord {value : Json} {word cs rest : List Char} {found : Json}
    (h : readWord value word cs = .ok (found, rest)) : found = value := by
  induction word generalizing cs with
  | nil => cases h; rfl
  | cons w word ih =>
    cases cs with
    | nil => cases h
    | cons c cs =>
      rw [readWord] at h
      split at h
      · exact ih h
      · cases h

theorem depth_of_readNumber {negative : Bool} {cs rest : List Char} {found : Json}
    (h : readNumber negative cs = .ok (found, rest)) : found.depth = 0 := by
  unfold readNumber at h
  cases hn : Numeral.read negative cs with
  | error e => rw [hn] at h; cases h
  | ok result =>
    obtain ⟨numeral, rest'⟩ := result
    rw [hn] at h
    cases hv : numeral.value with
    | error e => simp [bind, Except.bind, hv] at h
    | ok value =>
      simp only [bind, Except.bind, hv, Except.ok.injEq, Prod.mk.injEq] at h
      rw [← h.1]
      unfold Numeral.value at hv
      simp only at hv
      split at hv
      · cases hv; rfl
      · split at hv
        · cases hv; rfl
        · split at hv
          · cases hv; rfl
          · cases hv

theorem depth_of_readLeaf {first : Char} {cs rest : List Char} {found : Json}
    (h : readLeaf first cs = .ok (found, rest)) : found.depth = 0 := by
  unfold readLeaf at h
  split at h
  · rw [depth_of_readWord h]; rfl
  · rw [depth_of_readWord h]; rfl
  · rw [depth_of_readWord h]; rfl
  · cases hs : readString cs with
    | error e => rw [hs] at h; cases h
    | ok result => rw [hs] at h; cases h; rfl
  · exact depth_of_readNumber h
  · split at h
    · exact depth_of_readNumber h
    · cases h

section Members

variable {α : Type} {kind : Container α} {limit : Nat}

/-- What holds of every member that can be read holds of all that are read. -/
theorem forall_of_readMembers {holds : α → Prop}
    (hm : ∀ cs value rest, kind.member cs = .ok (value, rest) → holds value) {cs rest : List Char}
    {values : List α} (h : readMembers kind limit cs = .ok (values, rest)) :
    ∀ value ∈ values, holds value := by
  induction limit generalizing cs values with
  | zero => cases h
  | succ limit ih =>
    rw [readMembers] at h
    cases hfirst : kind.member cs with
    | error e => rw [hfirst] at h; cases h
    | ok result =>
      obtain ⟨first, after⟩ := result
      have hholds := hm _ _ _ hfirst
      simp only [hfirst] at h
      split at h
      · cases h
      · rename_i c after _
        split at h
        · cases h
          simpa using hholds
        · split at h
          · split at h
            · cases h
            · rename_i next beyond _
              split at h
              · cases h
              · cases hothers : readMembers kind limit (next :: beyond) with
                | error e => rw [hothers] at h; cases h
                | ok others =>
                  rw [hothers] at h
                  cases h
                  intro value hv
                  rcases List.mem_cons.1 hv with rfl | hv
                  · exact hholds
                  · exact ih hothers value hv
          · cases h

theorem forall_of_readContainer {holds : α → Prop}
    (hm : ∀ cs value rest, kind.member cs = .ok (value, rest) → holds value) {cs rest : List Char}
    {found : Json} (h : readContainer kind limit cs = .ok (found, rest)) :
    ∃ values, found = kind.build values ∧ ∀ value ∈ values, holds value := by
  unfold readContainer at h
  split at h
  · cases h
  · rename_i c after _
    split at h
    · cases h
      exact ⟨[], rfl, fun _ h => absurd h List.not_mem_nil⟩
    · cases hmembers : readMembers kind limit (c :: after) with
      | error e => rw [hmembers] at h; cases h
      | ok result =>
        rw [hmembers] at h
        cases h
        exact ⟨_, rfl, forall_of_readMembers hm hmembers⟩

end Members

theorem item_of_readEntry {item : Reader Json} {cs rest : List Char} {entry : String × Json}
    (h : Container.readEntry item cs = .ok (entry, rest)) :
    ∃ before, item before = .ok (entry.2, rest) := by
  unfold Container.readEntry at h
  split at h
  · split at h
    · cases h
    · simp only at h
      split at h
      · cases h
      · split at h
        · cases h
        · rename_i before _ _ _ hitem
          cases h
          exact ⟨_, hitem⟩
      · cases h
  · cases h

theorem depthItems_le {items : List Json} {n : Nat} (h : ∀ item ∈ items, item.depth ≤ n) :
    depthItems items ≤ n := by
  induction items with
  | nil => exact Nat.zero_le n
  | cons item rest ih =>
    rw [depthItems, Nat.max_le]
    exact ⟨h item List.mem_cons_self, ih fun other hm => h other (List.mem_cons_of_mem _ hm)⟩

theorem depthEntries_le {entries : Entries} {n : Nat} (h : ∀ entry ∈ entries, entry.2.depth ≤ n) :
    depthEntries entries ≤ n := by
  induction entries with
  | nil => exact Nat.zero_le n
  | cons entry rest ih =>
    rw [depthEntries, Nat.max_le]
    exact ⟨h entry List.mem_cons_self, ih fun other hm => h other (List.mem_cons_of_mem _ hm)⟩

/-- **What is read is no deeper than the reader allows.** -/
theorem depth_of_readValue {limit allowed : Nat} {cs rest : List Char} {found : Json}
    (h : readValue limit allowed cs = .ok (found, rest)) : found.depth ≤ allowed := by
  induction allowed generalizing cs rest found with
  | zero =>
    rw [readValue] at h
    split at h
    · cases h
    · split at h
      · cases h
      · rename_i first cs _ _
        cases hleaf : readLeaf first cs with
        | error e => rw [hleaf] at h; cases h
        | ok result =>
          rw [hleaf] at h
          cases h
          exact Nat.le_of_eq (depth_of_readLeaf hleaf)
  | succ allowed ih =>
    rw [readValue] at h
    split at h
    · cases h
    · split at h
      · simp only at h
        split at h
        · obtain ⟨items, rfl, hitems⟩ := forall_of_readContainer (fun _ _ _ hm => ih hm) h
          exact Nat.succ_le_succ (depthItems_le hitems)
        · have hmember : ∀ cs entry rest, (Container.object (readValue limit allowed)).member cs =
              .ok (entry, rest) → entry.2.depth ≤ allowed := fun cs entry rest hm => by
            obtain ⟨before, hitem⟩ := item_of_readEntry hm
            exact ih hitem
          obtain ⟨entries, rfl, hentries⟩ := forall_of_readContainer hmember h
          exact Nat.succ_le_succ (depthEntries_le hentries)
      · rename_i first cs _ _
        cases hleaf : readLeaf first cs with
        | error e => rw [hleaf] at h; cases h
        | ok result =>
          rw [hleaf] at h
          cases h
          exact Nat.le_trans (Nat.le_of_eq (depth_of_readLeaf hleaf)) (Nat.zero_le _)

theorem depthEntries_put_le {done : Entries} {key : String} {value : Json} {n : Nat}
    (hd : depthEntries done ≤ n) (hv : value.depth ≤ n) : depthEntries (done.put key value) ≤ n := by
  induction done with
  | nil => simpa [Entries.put, depthEntries] using hv
  | cons head rest ih =>
    obtain ⟨name, first⟩ := head
    rw [depthEntries, Nat.max_le] at hd
    unfold Entries.put
    split
    · rw [depthEntries, Nat.max_le]
      exact ⟨hv, hd.2⟩
    · rw [depthEntries, Nat.max_le]
      exact ⟨hd.1, ih hd.2⟩

theorem depthEntries_distinct_le (entries : Entries) :
    depthEntries entries.distinct ≤ depthEntries entries := by
  have hfold : ∀ (n : Nat) (rest done : Entries), depthEntries done ≤ n → depthEntries rest ≤ n →
      depthEntries (rest.foldl (fun done entry => Entries.put entry.1 entry.2 done) done) ≤ n := by
    intro n rest
    induction rest with
    | nil => intro done hd _; exact hd
    | cons head rest ih =>
      intro done hd hr
      rw [depthEntries, Nat.max_le] at hr
      exact ih _ (depthEntries_put_le hd hr.1) hr.2
  exact hfold _ entries [] (Nat.zero_le _) (Nat.le_refl _)

mutual
/-- Settling repeated keys makes nothing deeper. -/
theorem depth_tidy_le : (value : Json) → value.tidy.depth ≤ value.depth
  | .null => Nat.le_refl _
  | .bool _ => Nat.le_refl _
  | .int _ => Nat.le_refl _
  | .double _ => Nat.le_refl _
  | .str _ => Nat.le_refl _
  | .arr items => Nat.succ_le_succ (depth_tidyItems_le items)
  | .obj entries =>
    Nat.succ_le_succ
      (Nat.le_trans (depthEntries_distinct_le _) (depth_tidyEntries_le entries))

theorem depth_tidyItems_le : (items : List Json) → depthItems (tidyItems items) ≤ depthItems items
  | [] => Nat.le_refl _
  | item :: rest => by
    have hitem := depth_tidy_le item
    have hrest := depth_tidyItems_le rest
    rw [tidyItems, depthItems, depthItems]
    omega

theorem depth_tidyEntries_le :
    (entries : List (String × Json)) → depthEntries (tidyEntries entries) ≤ depthEntries entries
  | [] => Nat.le_refl _
  | (_, value) :: rest => by
    have hvalue := depth_tidy_le value
    have hrest := depth_tidyEntries_le rest
    rw [tidyEntries, depthEntries, depthEntries]
    omega
end

theorem depth_of_read {text : String} {value : Json} (h : read text = .ok value) :
    value.depth ≤ nestingLimit := by
  unfold read readFirst at h
  split at h
  · cases h
  · rename_i found rest hread
    split at h
    · cases h
      exact Nat.le_trans (depth_tidy_le found) (depth_of_readValue hread)
    · cases h

end SwiftScribe.Json
