import SwiftScribe.Swift.Literal

/-!
# Reading string literals back

A reader of Swift string literals: one line between double quotes, or lines of their own between
triple quotes. It is strict where Swift is, and stops at the first thing that has no place in a
literal of plain text.

* `unquote`: the reader. It hands back the text that a literal stands for, and what follows it.
* `unquote_quote_append`: **a written literal ends where it should**, whatever follows, unless a
  quote follows the empty literal.
* `unquote_quote`: **every text is read back** from its literal.
-/

namespace SwiftScribe.Swift

/-! ## The reader -/

/-- Why a text does not begin with a string literal of plain text. -/
inductive Misquote where
  /-- No quote stands at the beginning, or text follows opening triple quotes on their line. -/
  | unopened
  | unclosed
  | interpolation
  | unknownEscape (c : Char)
  | carriageReturn
  /-- A line ends inside a literal that has to end on its line. -/
  | newline
  /-- Triple quotes do not stand at the beginning of a line. -/
  | misplacedQuotes
deriving DecidableEq

/-- The quotes around a literal. -/
inductive Quotes where
  | single
  | triple
deriving DecidableEq

/-- The character that an escape stands for. -/
def unescape? : Char → Option Char
  | '\\' => some '\\'
  | '"' => some '"'
  | 'r' => some '\r'
  | _ => none

/-- A character in front of the text that was read. -/
def prepend (c : Char) (found : List Char × List Char) : List Char × List Char :=
  (c :: found.1, found.2)

/-- **The text up to the closing quotes**, and what follows them. The line break in front of closing
triple quotes belongs to them. -/
def readQuoted (quotes : Quotes) : List Char → Except Misquote (List Char × List Char)
  | [] => .error .unclosed
  | '\\' :: '(' :: _ => .error .interpolation
  | '\\' :: c :: rest =>
    match unescape? c with
    | some d => (readQuoted quotes rest).map (prepend d)
    | none => .error (.unknownEscape c)
  | '\r' :: _ => .error .carriageReturn
  | c :: rest =>
    match quotes, c, rest with
    | .single, '"', rest => .ok ([], rest)
    | .single, '\n', _ => .error .newline
    | .triple, '\n', '"' :: '"' :: '"' :: rest => .ok ([], rest)
    | .triple, '"', '"' :: '"' :: _ => .error .misplacedQuotes
    | _, c, _ => (readQuoted quotes rest).map (prepend c)

/-- **A reader of string literals:** the text that a literal stands for, and what follows it. The
line break behind opening triple quotes belongs to them; between two of them one line break is
enough. -/
def unquote : List Char → Except Misquote (List Char × List Char)
  | '"' :: '"' :: '"' :: '\n' :: '"' :: '"' :: '"' :: rest => .ok ([], rest)
  | '"' :: '"' :: '"' :: '\n' :: rest => readQuoted .triple rest
  | '"' :: '"' :: '"' :: _ => .error .unopened
  | '"' :: rest => readQuoted .single rest
  | _ => .error .unopened

/-! ## Characters -/

section Characters

variable {quotes : Quotes} {c : Char} {rest : List Char}

/-- **A character is written behind a backslash or as itself.** -/
theorem escapeChar_cases (c : Char) :
    (∃ d, escapeChar c = ['\\', d] ∧ unescape? d = some c) ∨
      c ∉ ['\\', '"', '\r'] ∧ escapeChar c = [c] := by
  by_cases h : c ∈ ['\\', '"', '\r']
  · left
    simp only [List.mem_cons, List.not_mem_nil, or_false] at h
    rcases h with rfl | rfl | rfl
    · exact ⟨'\\', rfl, rfl⟩
    · exact ⟨'"', rfl, rfl⟩
    · exact ⟨'r', rfl, rfl⟩
  · refine .inr ⟨h, ?_⟩
    simp only [List.mem_cons, List.not_mem_nil, or_false, not_or] at h
    unfold escapeChar
    split <;> simp_all

/-- Escapes are letters, quotes or backslashes: none opens an interpolation or breaks the line. -/
theorem mem_of_unescape? {d : Char} (h : unescape? d = some c) : d ∈ ['\\', '"', 'r'] := by
  unfold unescape? at h
  split at h
  · decide
  · decide
  · decide
  · cases h

/-- **An escaped character is read as the character**, inside any quotes. -/
theorem readQuoted_escaped {d : Char} (h : unescape? d = some c) (rest : List Char) :
    readQuoted quotes ('\\' :: d :: rest) = (readQuoted quotes rest).map (prepend c) := by
  have hd : d ≠ '(' := by
    rintro rfl
    cases h
  rw [readQuoted.eq_def]
  split <;> grind

/-- Any other character is read as itself, if it does not begin the end of the literal. -/
theorem readQuoted_plain (h : c ∉ ['\\', '"', '\r']) (hs : quotes = .single → c ≠ '\n')
    (ht : quotes = .triple → rest.head? ≠ some '"') :
    readQuoted quotes (c :: rest) = (readQuoted quotes rest).map (prepend c) := by
  simp only [List.mem_cons, List.not_mem_nil, or_false, not_or] at h
  rw [readQuoted.eq_def]
  split
  · contradiction
  · simp_all
  · simp_all
  · simp_all
  · rename_i heq
    cases heq
    split <;> simp_all

/-- **Every character is read back**, between quotes that it can stand between. -/
theorem readQuoted_escapeChar (c : Char) (hs : quotes = .single → c ≠ '\n')
    (ht : quotes = .triple → rest.head? ≠ some '"') :
    readQuoted quotes (escapeChar c ++ rest) = (readQuoted quotes rest).map (prepend c) := by
  rcases escapeChar_cases c with ⟨d, hc, hd⟩ | ⟨hplain, hc⟩
  · rw [hc]
    exact readQuoted_escaped hd rest
  · rw [hc]
    exact readQuoted_plain hplain hs ht

/-- **No escaped text begins with a quote.** -/
theorem head?_escaped_ne {chars : List Char} (h : chars = [] → rest.head? ≠ some '"') :
    (chars.flatMap escapeChar ++ rest).head? ≠ some '"' := by
  cases chars with
  | nil => exact h rfl
  | cons c more =>
    rw [List.flatMap_cons]
    rcases escapeChar_cases c with ⟨d, hc, -⟩ | ⟨hplain, hc⟩
    · simp [hc]
    · rw [hc]
      have hquote : c ≠ '"' := by
        rintro rfl
        exact hplain (by decide)
      simpa using hquote

/-- A line break is never escaped, and nothing else becomes one. -/
theorem newline_mem_escapeChar_iff (c : Char) : '\n' ∈ escapeChar c ↔ '\n' = c := by
  rcases escapeChar_cases c with ⟨d, hc, hd⟩ | ⟨-, hc⟩
  · have hletter := mem_of_unescape? hd
    have hbreak : c ≠ '\n' := by
      rintro rfl
      simp only [List.mem_cons, List.not_mem_nil, or_false] at hletter
      rcases hletter with rfl | rfl | rfl <;> cases hd
    rw [hc]
    refine iff_of_false (fun hm => ?_) hbreak.symm
    simp at hm
    subst hm
    cases hd
  · rw [hc, List.mem_singleton]

/-- No carriage return is left as it is. -/
theorem return_notMem_escapeChar (c : Char) : '\r' ∉ escapeChar c := by
  rcases escapeChar_cases c with ⟨d, hc, hd⟩ | ⟨hplain, hc⟩
  · rw [hc]
    intro hm
    simp at hm
    subst hm
    cases hd
  · rw [hc, List.mem_singleton]
    rintro rfl
    exact hplain (by decide)

end Characters

/-! ## Literals -/

/-- **Text on one line is read up to the next quote.** -/
theorem readQuoted_line {chars : List Char} (h : '\n' ∉ chars) (rest : List Char) :
    readQuoted .single (chars.flatMap escapeChar ++ '"' :: rest) = .ok (chars, rest) := by
  induction chars with
  | nil => rfl
  | cons c more ih =>
    simp only [List.mem_cons, not_or] at h
    have hc : c ≠ '\n' := Ne.symm h.1
    rw [List.flatMap_cons, List.append_assoc,
      readQuoted_escapeChar c (fun _ => hc) (fun ht => by cases ht), ih h.2]
    rfl

/-- **Text between triple quotes is read up to those at the beginning of a line.** No line break of
the text itself is followed by a quote. -/
theorem readQuoted_lines (chars rest : List Char) :
    readQuoted .triple (chars.flatMap escapeChar ++ '\n' :: '"' :: '"' :: '"' :: rest) =
      .ok (chars, rest) := by
  induction chars with
  | nil => rfl
  | cons c more ih =>
    have hhead : (more.flatMap escapeChar ++ '\n' :: '"' :: '"' :: '"' :: rest).head? ≠ some '"' :=
      head?_escaped_ne fun _ => by simp
    rw [List.flatMap_cons, List.append_assoc,
      readQuoted_escapeChar c (fun hs => by cases hs) (fun _ => hhead), ih]
    rfl

/-- What opens a literal is one quote, unless two more follow. -/
theorem unquote_single {rest : List Char} (h : ∀ more, rest ≠ '"' :: '"' :: more) :
    unquote ('"' :: rest) = readQuoted .single rest := by
  unfold unquote
  split <;> simp_all

/-- Triple quotes open a literal that begins on the next line. -/
theorem unquote_triple {rest : List Char} (h : rest.head? ≠ some '"') :
    unquote ('"' :: '"' :: '"' :: '\n' :: rest) = readQuoted .triple rest := by
  rw [unquote.eq_def]
  split <;> grind

/-- The text of a literal on one line, before anything that does not make its quotes triple. -/
theorem escaped_ne_quotes {chars rest : List Char} (h : chars = [] → rest.head? ≠ some '"')
    (more : List Char) : chars.flatMap escapeChar ++ '"' :: rest ≠ '"' :: '"' :: more := by
  intro heq
  by_cases hchars : chars = []
  · rw [hchars] at heq
    have hrest : rest = '"' :: more := by simpa using heq
    exact h hchars (by rw [hrest]; rfl)
  · have hhead : (chars.flatMap escapeChar ++ '"' :: rest).head? ≠ some '"' :=
      head?_escaped_ne fun hnil => absurd hnil hchars
    rw [heq] at hhead
    exact hhead rfl

theorem newline_mem_escape_iff (raw : String) : '\n' ∈ (escape raw).toList ↔ '\n' ∈ raw.toList := by
  simp [escape, newline_mem_escapeChar_iff]

theorem toList_quote_line {raw : String} (h : '\n' ∉ raw.toList) :
    (quote raw).toList = '"' :: (raw.toList.flatMap escapeChar ++ ['"']) := by
  rw [quote, wrap, if_neg (mt (newline_mem_escape_iff raw).1 h)]
  simp [escape]

theorem toList_quote_lines {raw : String} (h : '\n' ∈ raw.toList) :
    (quote raw).toList =
      '"' :: '"' :: '"' :: '\n' :: (raw.toList.flatMap escapeChar ++ ['\n', '"', '"', '"']) := by
  rw [quote, wrap, if_pos ((newline_mem_escape_iff raw).2 h)]
  simp [escape]

/-- **A written literal is read up to its end**, and what follows is left. Only the empty literal
must not be followed by a quote. -/
theorem unquote_quote_append (raw : String) {rest : List Char}
    (h : raw = "" → rest.head? ≠ some '"') :
    unquote ((quote raw).toList ++ rest) = .ok (raw.toList, rest) := by
  by_cases hlines : '\n' ∈ raw.toList
  · have htext : (quote raw).toList ++ rest =
        '"' :: '"' :: '"' :: '\n' :: (raw.toList.flatMap escapeChar ++
          '\n' :: '"' :: '"' :: '"' :: rest) := by
      rw [toList_quote_lines hlines]
      simp
    have hhead : (raw.toList.flatMap escapeChar ++ '\n' :: '"' :: '"' :: '"' :: rest).head? ≠
        some '"' := head?_escaped_ne fun _ => by simp
    rw [htext, unquote_triple hhead, readQuoted_lines]
  · have htext : (quote raw).toList ++ rest =
        '"' :: (raw.toList.flatMap escapeChar ++ '"' :: rest) := by
      rw [toList_quote_line hlines]
      simp
    have hopening : ∀ more, raw.toList.flatMap escapeChar ++ '"' :: rest ≠ '"' :: '"' :: more :=
      escaped_ne_quotes fun hnil => h (by simpa using hnil)
    rw [htext, unquote_single hopening, readQuoted_line hlines]

/-- **Every text is read back from its literal**, which is read to its end. The reader meets no
interpolation and no unknown escape on the way. There is no carriage return in the literal, and a
line break only where the text has one, between triple quotes. -/
theorem unquote_quote (raw : String) :
    unquote (quote raw).toList = .ok (raw.toList, []) ∧ '\r' ∉ (quote raw).toList ∧
      ('\n' ∈ (quote raw).toList ↔ ['"', '"', '"'] <+: (quote raw).toList) ∧
      (['"', '"', '"'] <+: (quote raw).toList ↔ '\n' ∈ raw.toList) := by
  have hread : unquote ((quote raw).toList ++ []) = .ok (raw.toList, []) :=
    unquote_quote_append raw (by simp)
  rw [List.append_nil] at hread
  by_cases hlines : '\n' ∈ raw.toList
  · refine ⟨hread, ?_, ?_, ?_⟩ <;> rw [toList_quote_lines hlines]
    · simp [return_notMem_escapeChar]
    · simp
    · simp [hlines]
  · have hopening : ¬ ['"', '"', '"'] <+: (quote raw).toList := by
      rintro ⟨more, hmore⟩
      rw [toList_quote_line hlines] at hmore
      have hends : raw.toList.flatMap escapeChar ++ ['"'] ≠ '"' :: '"' :: more :=
        escaped_ne_quotes (by simp) more
      exact hends (by simpa using hmore.symm)
    refine ⟨hread, ?_, iff_of_false ?_ hopening, iff_of_false hopening hlines⟩
    · rw [toList_quote_line hlines]
      simp [return_notMem_escapeChar]
    · rw [toList_quote_line hlines]
      simp [newline_mem_escapeChar_iff, hlines]

/-- Quotes, a backslash and a line break at the end. -/
example : unquote "\"\"\"\n\\\"hi\\\" \\\\\n\n\"\"\" + x".toList =
    .ok ("\"hi\" \\\n".toList, " + x".toList) := by rfl

end SwiftScribe.Swift
