import Mathlib.Data.List.Chain
import SwiftScribe.Swift.Piece

/-!
# A scan of Swift text

What a lexer of Swift keeps of a text: the brackets, string literals and comments that are open. A
piece of a text is told by what it does to the open brackets, whatever stands around it.

* `scan`, `Balanced`: the lexer, and the texts after which nothing is open.
* `Leads`: **a text leads from some open brackets to others**, in every code, before every rest that
  keeps apart from it.
* `Leads.comp`, `neutral_intercalate`: texts after texts.
* `Leads.of_glide`, `Clean.neutral`, `Leads.comment`, `Content.wrap`: fixed pieces, names, comments
  and string literals.
-/

namespace SwiftScribe.Swift

/-! ## The lexer -/

/-- A kind of brackets. -/
inductive Bracket where
  | round
  | square
  | curly
deriving DecidableEq

/-- The bracket that a character opens, if any. -/
def Bracket.opened? : Char → Option Bracket
  | '(' => some .round
  | '[' => some .square
  | '\x7b' => some .curly
  | _ => none

/-- The bracket that a character closes, if any. -/
def Bracket.closed? : Char → Option Bracket
  | ')' => some .round
  | ']' => some .square
  | '\x7d' => some .curly
  | _ => none

/-- **What may be open at a place of a text:** a bracket, a string literal on one line or over
several, a comment between marks or up to the end of the line. -/
inductive Frame where
  | bracket (kind : Bracket)
  | line
  | block
  | comment
  | remark
deriving DecidableEq

/-- How the next character is read. -/
inductive Mode where
  | code
  | line
  | block
  | comment
  | remark

/-- The innermost frame decides how the next character is read. Between brackets it is code, also in
the interpolations of a string. -/
def modeOf : List Frame → Mode
  | [] => .code
  | .bracket _ :: _ => .code
  | .line :: _ => .line
  | .block :: _ => .block
  | .comment :: _ => .comment
  | .remark :: _ => .remark

/-- Whether a character ends a line. -/
def isBreak (c : Char) : Bool := c == '\n' || c == '\r'

/-- **A lexer scan**: what is open after a text, from the innermost frame outwards; none if a
bracket is closed that is not the innermost one open, a comment is closed that is not open, or a
line ends inside a string literal that has to end on its line. -/
def scan : List Frame → List Char → Option (List Frame)
  | stack, [] => some stack
  | stack, c :: rest =>
    if isBreak c ∧ .line ∈ stack then none
    else
      match modeOf stack with
      | .code =>
        match c, rest with
        | '"', '"' :: '"' :: rest => scan (.block :: stack) rest
        | '"', rest => scan (.line :: stack) rest
        | '/', '*' :: rest => scan (.comment :: stack) rest
        | '/', '/' :: rest => scan (.remark :: stack) rest
        | '*', '/' :: _ => none
        | c, rest =>
          match Bracket.opened? c, Bracket.closed? c with
          | some kind, _ => scan (.bracket kind :: stack) rest
          | none, some kind =>
            if stack.head? = some (.bracket kind) then scan stack.tail rest else none
          | none, none => scan stack rest
      | .line =>
        match c, rest with
        | '"', rest => scan stack.tail rest
        | '\\', '(' :: rest => scan (.bracket .round :: stack) rest
        | '\\', '"' :: rest => scan stack rest
        | '\\', '\\' :: rest => scan stack rest
        | _, rest => scan stack rest
      | .block =>
        match c, rest with
        | '"', '"' :: '"' :: rest => scan stack.tail rest
        | '\\', '(' :: rest => scan (.bracket .round :: stack) rest
        | '\\', '"' :: rest => scan stack rest
        | '\\', '\\' :: rest => scan stack rest
        | _, rest => scan stack rest
      | .comment =>
        match c, rest with
        | '*', '/' :: rest => scan stack.tail rest
        | '/', '*' :: rest => scan (.comment :: stack) rest
        | _, rest => scan stack rest
      | .remark => if isBreak c then scan stack.tail rest else scan stack rest
-- By length: the equation of a structural recursion is slow to derive through these matches.
termination_by _ text => text.length

/-- **Everything that is opened in a text is closed**, in order. -/
def Balanced (text : String) : Prop := scan [] text.toList = some []

/-! ## Single steps -/

section Steps

variable {S : List Frame} {c : Char} {rest : List Char}

/-- A character of code that starts and ends nothing. -/
theorem scan_skip (hS : modeOf S = .code) (ho : Bracket.opened? c = none)
    (hk : Bracket.closed? c = none) (hc : c ∉ ['"', '/', '*']) (hb : isBreak c → .line ∉ S)
    (rest : List Char) : scan S (c :: rest) = scan S rest := by
  have hb' : ¬ (isBreak c ∧ .line ∈ S) := fun h => hb h.1 h.2
  simp only [List.mem_cons, List.not_mem_nil, or_false, not_or] at hc
  rw [scan.eq_def S (c :: rest)]
  simp only [if_neg hb', hS]
  split <;> simp_all

/-- A slash that starts no comment. -/
theorem scan_slash (hS : modeOf S = .code) (hr : ∀ d ∈ rest.head?, d ≠ '*' ∧ d ≠ '/') :
    scan S ('/' :: rest) = scan S rest := by
  rw [scan.eq_def S ('/' :: rest)]
  simp only [hS]
  cases rest with
  | nil => simp [isBreak, Bracket.opened?, Bracket.closed?]
  | cons d rest =>
    simp at hr
    simp [isBreak]
    split <;> simp_all [Bracket.opened?, Bracket.closed?]

/-- A star that ends no comment. -/
theorem scan_star (hS : modeOf S = .code) (hr : ∀ d ∈ rest.head?, d ≠ '/') :
    scan S ('*' :: rest) = scan S rest := by
  rw [scan.eq_def S ('*' :: rest)]
  simp only [hS]
  cases rest with
  | nil => simp [isBreak, Bracket.opened?, Bracket.closed?]
  | cons d rest =>
    simp at hr
    simp [isBreak]
    split <;> simp_all [Bracket.opened?, Bracket.closed?]

theorem scan_opening {kind : Bracket} (hS : modeOf S = .code) (hc : Bracket.opened? c = some kind)
    (rest : List Char) : scan S (c :: rest) = scan (.bracket kind :: S) rest := by
  rw [scan.eq_def S (c :: rest)]
  unfold Bracket.opened? at hc
  split at hc <;> cases hc <;> simp [isBreak, hS, Bracket.opened?]

theorem scan_closing {kind : Bracket} (hc : Bracket.closed? c = some kind) (S : List Frame)
    (rest : List Char) : scan (.bracket kind :: S) (c :: rest) = scan S rest := by
  rw [scan.eq_def (.bracket kind :: S) (c :: rest)]
  unfold Bracket.closed? at hc
  split at hc <;> cases hc <;> simp [isBreak, modeOf, Bracket.opened?, Bracket.closed?]

/-! ### Comments -/

theorem scan_comment (hS : modeOf S = .code) (rest : List Char) :
    scan S ('/' :: '*' :: rest) = scan (.comment :: S) rest := by
  rw [scan.eq_def S ('/' :: '*' :: rest)]
  simp [isBreak, hS]

theorem scan_uncomment (S : List Frame) (rest : List Char) :
    scan (.comment :: S) ('*' :: '/' :: rest) = scan S rest := by
  rw [scan.eq_def (.comment :: S) ('*' :: '/' :: rest)]
  simp [isBreak, modeOf]

/-- A character inside a comment. -/
theorem scan_commented (hs : c = '/' → ∀ d ∈ rest.head?, d ≠ '*')
    (hm : c = '*' → ∀ d ∈ rest.head?, d ≠ '/') (hb : isBreak c → .line ∉ S) :
    scan (.comment :: S) (c :: rest) = scan (.comment :: S) rest := by
  have hb' : ¬ (isBreak c ∧ .line ∈ Frame.comment :: S) := fun h => hb h.1 (by simpa using h.2)
  rw [scan.eq_def (.comment :: S) (c :: rest)]
  simp only [if_neg hb', modeOf]
  split <;> simp_all

/-! ### String literals -/

/-- A string literal on one line; two quotes in a row open it only if no third one follows. -/
theorem scan_quote (hS : modeOf S = .code) (hr : ∀ more, rest ≠ '"' :: '"' :: more) :
    scan S ('"' :: rest) = scan (.line :: S) rest := by
  rw [scan.eq_def S ('"' :: rest)]
  simp only [hS]
  split
  · simp_all [isBreak]
  · rfl

theorem scan_unquote (S : List Frame) (rest : List Char) :
    scan (.line :: S) ('"' :: rest) = scan S rest := by
  rw [scan.eq_def (.line :: S) ('"' :: rest)]
  simp [isBreak, modeOf]

theorem scan_quotes (hS : modeOf S = .code) (rest : List Char) :
    scan S ('"' :: '"' :: '"' :: rest) = scan (.block :: S) rest := by
  rw [scan.eq_def S ('"' :: '"' :: '"' :: rest)]
  simp [isBreak, hS]

theorem scan_unquotes (S : List Frame) (rest : List Char) :
    scan (.block :: S) ('"' :: '"' :: '"' :: rest) = scan S rest := by
  rw [scan.eq_def (.block :: S) ('"' :: '"' :: '"' :: rest)]
  simp [isBreak, modeOf]

/-- The frame of a string literal. -/
def Frame.isString (frame : Frame) : Prop := frame = .line ∨ frame = .block

variable {frame : Frame}

/-- A character inside a string literal. -/
theorem scan_content (hf : frame.isString) (hq : c ≠ '"') (he : c ≠ '\\')
    (hb : isBreak c → .line ∉ frame :: S) (rest : List Char) :
    scan (frame :: S) (c :: rest) = scan (frame :: S) rest := by
  have hb' : ¬ (isBreak c ∧ .line ∈ frame :: S) := fun h => hb h.1 h.2
  rw [scan.eq_def (frame :: S) (c :: rest)]
  rcases hf with rfl | rfl
  · simp only [if_neg hb', modeOf]
    split <;> simp_all
  · simp only [if_neg hb', modeOf]
    split <;> simp_all

/-- A quote or a backslash after a backslash. -/
theorem scan_escaped (hf : frame.isString) (hc : c = '"' ∨ c = '\\') (rest : List Char) :
    scan (frame :: S) ('\\' :: c :: rest) = scan (frame :: S) rest := by
  rw [scan.eq_def (frame :: S) ('\\' :: c :: rest)]
  rcases hf with rfl | rfl <;> rcases hc with rfl | rfl <;> simp [isBreak, modeOf]

/-- A carriage return that is spelled out. -/
theorem scan_spelled (hf : frame.isString) (rest : List Char) :
    scan (frame :: S) ('\\' :: 'r' :: rest) = scan (frame :: S) rest := by
  have hletter : scan (frame :: S) ('r' :: rest) = scan (frame :: S) rest :=
    scan_content hf (by decide) (by decide) (by simp [isBreak]) rest
  rw [scan.eq_def (frame :: S) ('\\' :: 'r' :: rest)]
  rcases hf with rfl | rfl <;> simpa [isBreak, modeOf] using hletter

theorem scan_interpolation (hf : frame.isString) (rest : List Char) :
    scan (frame :: S) ('\\' :: '(' :: rest) = scan (.bracket .round :: frame :: S) rest := by
  rw [scan.eq_def (frame :: S) ('\\' :: '(' :: rest)]
  rcases hf with rfl | rfl <;> simp [isBreak, modeOf]

end Steps

/-! ## Pieces of code -/

/-- **What follows keeps apart from the text before it:** it does not go on with a quote or a
comment mark that the text may have started. -/
def Apart (rest : List Char) : Prop := ∀ c ∈ rest.head?, c ∉ ['"', '/', '*']

/-- **A text leads from some open brackets to others**, in any code it may stand in and before any
rest of a kind. It has line breaks only where no literal has to end on its line. -/
structure Leads (next : List Char → Prop) (before after : List Bracket) (text : String) : Prop where
  no_return : '\r' ∉ text.toList
  scan_eq : ∀ (S : List Frame) (rest : List Char), modeOf S = .code →
    ('\n' ∈ text.toList → .line ∉ S) → next rest →
      scan (before.map .bracket ++ S) (text.toList ++ rest) = scan (after.map .bracket ++ S) rest

/-- A text that may be followed by anything. -/
abbrev Solid : List Bracket → List Bracket → String → Prop := Leads fun _ => True

/-- A text that is not to be followed by a quote or a comment mark. -/
abbrev Loose : List Bracket → List Bracket → String → Prop := Leads Apart

/-- **A text that leaves everything open as it is.** -/
abbrev Neutral : String → Prop := Loose [] []

theorem modeOf_brackets {S : List Frame} (hS : modeOf S = .code) (kinds : List Bracket) :
    modeOf (kinds.map .bracket ++ S) = .code := by
  cases kinds with
  | nil => exact hS
  | cons kind rest => rfl

theorem Leads.balanced {text : String} (h : Neutral text) : Balanced text := by
  have hend : scan [] (text.toList ++ []) = scan [] [] :=
    h.scan_eq [] [] rfl (fun _ => List.not_mem_nil) fun _ hc => nomatch hc
  rw [List.append_nil] at hend
  exact hend.trans (scan.eq_def [] [])

section Pieces

variable {next other : List Char → Prop} {p q r : List Bracket} {a b text : String}

/-- **One text after the other.** -/
theorem Leads.comp (ha : Leads next p q a) (hb : Leads other q r b)
    (hnext : ∀ rest, other rest → next (b.toList ++ rest)) : Leads other p r (a ++ b) where
  no_return := by
    rw [String.toList_append, List.mem_append, not_or]
    exact ⟨ha.no_return, hb.no_return⟩
  scan_eq S rest hS hn hrest := by
    simp only [String.toList_append, List.mem_append] at hn
    rw [String.toList_append, List.append_assoc,
      ha.scan_eq S _ hS (fun h => hn (.inl h)) (hnext rest hrest),
      hb.scan_eq S rest hS (fun h => hn (.inr h)) hrest]

theorem Leads.append (ha : Solid p q a) (hb : Leads next q r b) : Leads next p r (a ++ b) :=
  ha.comp hb fun _ _ => trivial

theorem Leads.loose (h : Solid p q text) : Loose p q text :=
  ⟨h.no_return, fun S rest hS hn _ => h.scan_eq S rest hS hn trivial⟩

/-- **A text stays as it is inside further brackets.** -/
theorem Leads.within (h : Leads next p q text) (outer : List Bracket) :
    Leads next (p ++ outer) (q ++ outer) text where
  no_return := h.no_return
  scan_eq S rest hS hn hrest := by
    have hinner : '\n' ∈ text.toList → .line ∉ outer.map .bracket ++ S := by
      intro hnew
      simpa using hn hnew
    simpa using h.scan_eq (outer.map .bracket ++ S) rest (modeOf_brackets hS outer) hinner hrest

/-- Whether a text begins with something that keeps apart from what stands before it. -/
def startsApart (text : String) : Bool := text.toList.head?.any (· ∉ ['"', '/', '*'])

theorem apart_append (h : startsApart b) (rest : List Char) : Apart (b.toList ++ rest) := by
  unfold startsApart at h
  intro c hc
  cases hb : b.toList with
  | nil => simp [hb] at h
  | cons first more =>
    simp only [hb, List.head?_cons, Option.any_some, decide_eq_true_eq] at h
    simp only [hb, List.cons_append, List.head?_cons, Option.mem_some_iff] at hc
    exact hc ▸ h

/-! ### Fixed pieces -/

/-- The brackets that are open after characters which are no part of literals and comments. -/
def glide : List Bracket → List Char → Option (List Bracket)
  | kinds, [] => some kinds
  | kinds, c :: rest =>
    match Bracket.opened? c, Bracket.closed? c with
    | some kind, _ => glide (kind :: kinds) rest
    | none, some kind => if kinds.head? = some kind then glide kinds.tail rest else none
    | none, none => if c ∈ ['"', '\\', '/', '*', '\r'] then none else glide kinds rest

theorem scan_glide {S : List Frame} (hS : modeOf S = .code) {chars : List Char}
    (h : glide p chars = some q) (hn : '\n' ∈ chars → .line ∉ S) (rest : List Char) :
    scan (p.map .bracket ++ S) (chars ++ rest) = scan (q.map .bracket ++ S) rest := by
  fun_induction glide p chars with
  | case1 kinds => cases h; rfl
  | case2 kinds c chars kind ho ih =>
    have hmore := ih h fun hm => hn (List.mem_cons_of_mem _ hm)
    exact (scan_opening (modeOf_brackets hS kinds) ho _).trans hmore
  | case3 kinds c chars kind hk ho hhead ih =>
    have hmore := ih h fun hm => hn (List.mem_cons_of_mem _ hm)
    obtain ⟨more, rfl⟩ := List.head?_eq_some_iff.1 hhead
    exact (scan_closing hk _ _).trans hmore
  | case4 | case5 => cases h
  | case6 kinds c chars hk ho hc ih =>
    have hmore := ih h fun hm => hn (List.mem_cons_of_mem _ hm)
    simp only [List.mem_cons, List.not_mem_nil, or_false, not_or] at hc
    refine (scan_skip (modeOf_brackets hS kinds) ho hk (by simp [hc]) (fun hb => ?_) _).trans hmore
    -- `glide` stops at a carriage return, so a break is a line feed
    have hnew : c = '\n' := by simpa [isBreak, hc] using hb
    simpa using hn (hnew ▸ List.mem_cons_self)

theorem not_mem_of_glide {chars : List Char} (h : glide p chars = some q) : '\r' ∉ chars := by
  fun_induction glide p chars with
  | case1 => exact List.not_mem_nil
  | case2 kinds c chars kind ho ih =>
    have hc : c ≠ '\r' := by rintro rfl; cases ho
    simp [ih h, hc.symm]
  | case3 kinds c chars kind hk ho hhead ih =>
    have hc : c ≠ '\r' := by rintro rfl; cases hk
    simp [ih h, hc.symm]
  | case4 | case5 => cases h
  | case6 kinds c chars hk ho hc ih =>
    have hc : c ≠ '\r' := by rintro rfl; simp at hc
    simp [ih h, hc.symm]

/-- **A fixed piece** leads where its brackets lead. -/
theorem Leads.of_glide (h : glide p text.toList = some q) : Solid p q text :=
  ⟨not_mem_of_glide h, fun _ rest hS hn _ => scan_glide hS h hn rest⟩

/-- **A fixed piece that can stand after any text:** it keeps apart from the text, and leads from
some open brackets to others. -/
def Joint (before after : List Bracket) (piece : String) : Prop :=
  startsApart piece ∧ glide before piece.toList = some after

instance (before after : List Bracket) (piece : String) : Decidable (Joint before after piece) :=
  inferInstanceAs (Decidable (_ ∧ _))

theorem Leads.close (ha : Loose p q a) (hb : Joint q r b) : Solid p r (a ++ b) :=
  ha.comp (.of_glide hb.2) fun rest _ => apart_append hb.1 rest

theorem neutral_empty : Neutral "" := Leads.loose (.of_glide rfl)

/-- **Neutral texts with a separator between them.** -/
theorem neutral_intercalate {separator : String} (hs : Joint [] [] separator) {texts : List String}
    (h : ∀ text ∈ texts, Neutral text) : Neutral (separator.intercalate texts) := by
  induction texts with
  | nil => exact neutral_empty
  | cons first more ih =>
    cases more with
    | nil => simpa using h
    | cons second more =>
      rw [String.intercalate_cons_cons]
      have hfirst := (h first List.mem_cons_self).close hs
      exact hfirst.append (ih fun text hm => h text (List.mem_cons_of_mem _ hm))

/-! ### Names -/

/-- The characters of names of the source: letters, digits, `_`, `$` and `.`. -/
def isPlain (c : Char) : Bool :=
  Text.isAlphabetic c || Text.isNumeric c || c ∈ ['_', '$', '.']

/-- **A plain text** has no other characters. -/
def Plain (text : String) : Prop := ∀ c ∈ text.toList, isPlain c

-- By the characters of the text, and never by all characters there are.
instance (text : String) : Decidable (Plain text) := List.decidableBAll _ text.toList

/-- No bracket, mark of a literal or comment, or end of a line is plain. -/
theorem not_isPlain {c : Char} (h : isPlain c) :
    Bracket.opened? c = none ∧ Bracket.closed? c = none ∧
      c ∉ ['"', '\\', '/', '*', '\n', '\r'] := by
  refine ⟨?_, ?_, ?_⟩
  · unfold Bracket.opened?
    split
    · exact absurd h (by decide)
    · exact absurd h (by decide)
    · exact absurd h (by decide)
    · rfl
  · unfold Bracket.closed?
    split
    · exact absurd h (by decide)
    · exact absurd h (by decide)
    · exact absurd h (by decide)
    · rfl
  · intro hm
    have hnone : ['"', '\\', '/', '*', '\n', '\r'].all fun d => !isPlain d := by decide
    have hc := List.all_eq_true.1 hnone c hm
    simp [h] at hc

theorem glide_of_isPlain {chars : List Char} (h : ∀ c ∈ chars, isPlain c) :
    glide p chars = some p := by
  induction chars with
  | nil => rfl
  | cons c rest ih =>
    obtain ⟨ho, hk, hc⟩ := not_isPlain (h c List.mem_cons_self)
    simp only [List.mem_cons, List.not_mem_nil, or_false, not_or] at hc
    simp only [glide, ho, hk]
    simp [hc, ih fun d hd => h d (List.mem_cons_of_mem _ hd)]

theorem Plain.solid (h : Plain text) : Solid p p text := .of_glide (glide_of_isPlain h)

/-- Whether two characters in a row mark the start or the end of a comment. -/
def isCommentMark (c d : Char) : Bool := (c, d) ∈ [('/', '*'), ('*', '/'), ('/', '/')]

/-- **A clean text** has no brackets, quotes, backslashes, line breaks and comment marks. -/
structure Clean (text : String) : Prop where
  chars : ∀ c ∈ text.toList, Bracket.opened? c = none ∧ Bracket.closed? c = none ∧
    c ∉ ['"', '\\', '\n', '\r']
  marks : text.toList.IsChain fun c d => ¬ isCommentMark c d

instance (text : String) : Decidable (Clean text) :=
  have := List.decidableBAll (fun c => Bracket.opened? c = none ∧ Bracket.closed? c = none ∧
    c ∉ ['"', '\\', '\n', '\r']) text.toList
  decidable_of_iff (_ ∧ _) ⟨fun h => ⟨h.1, h.2⟩, fun h => ⟨h.chars, h.marks⟩⟩

theorem Plain.clean (h : Plain text) : Clean text where
  chars c hc := by
    obtain ⟨ho, hk, hn⟩ := not_isPlain (h c hc)
    exact ⟨ho, hk, by simp_all⟩
  marks := by
    refine (List.isChain_iff_forall_rel_of_append_cons_cons).2 fun c d l l' heq hmark => ?_
    have hc := (not_isPlain (h c (by simp [heq]))).2.2
    simp_all [isCommentMark]

theorem scan_clean {S : List Frame} (hS : modeOf S = .code) {chars : List Char}
    (hc : ∀ c ∈ chars, Bracket.opened? c = none ∧ Bracket.closed? c = none ∧
      c ∉ ['"', '\\', '\n', '\r'])
    (hm : chars.IsChain fun c d => ¬ isCommentMark c d) {rest : List Char} (hr : Apart rest) :
    scan S (chars ++ rest) = scan S rest := by
  induction chars with
  | nil => rfl
  | cons c chars ih =>
    obtain ⟨hmark, hchain⟩ := List.isChain_cons.1 hm
    have hmore := ih (fun d hd => hc d (List.mem_cons_of_mem _ hd)) hchain
    obtain ⟨ho, hk, hn⟩ := hc c List.mem_cons_self
    -- what comes next makes no comment mark with `c`
    have hnext : ∀ d ∈ (chars ++ rest).head?, c ∈ ['/', '*'] → ¬ isCommentMark c d := by
      intro d hd hcomment
      cases chars with
      | nil =>
        have := hr d hd
        simp_all [isCommentMark]
      | cons first more => exact hmark d (by simpa using hd)
    by_cases hslash : c = '/'
    · subst hslash
      refine (scan_slash hS fun d hd => ?_).trans hmore
      have := hnext d hd (by simp)
      simp_all [isCommentMark]
    · by_cases hstar : c = '*'
      · subst hstar
        refine (scan_star hS fun d hd => ?_).trans hmore
        have := hnext d hd (by simp)
        simp_all [isCommentMark]
      · refine (scan_skip hS ho hk (by simp_all) (fun hb => ?_) _).trans hmore
        simp_all [isBreak]

theorem Clean.neutral (h : Clean text) : Neutral text where
  no_return hm := by simpa using (h.chars _ hm).2.2
  scan_eq _ _ hS _ hrest := scan_clean hS h.chars h.marks hrest

/-! ### Comments -/

/-- **A text that can stand in a comment** has no mark that starts or ends one between marks. -/
def Unmarked (chars : List Char) : Prop :=
  chars.IsChain fun c d => ¬ (c = '/' ∧ d = '*') ∧ ¬ (c = '*' ∧ d = '/')

theorem scan_unmarked {S : List Frame} {chars : List Char} (hm : Unmarked chars)
    (hb : ∀ c ∈ chars, isBreak c → .line ∉ S) (rest : List Char) :
    scan (.comment :: S) (chars ++ ' ' :: '*' :: '/' :: rest) = scan S rest := by
  induction chars with
  | nil =>
    have hblank : scan (.comment :: S) (' ' :: '*' :: '/' :: rest) =
        scan (.comment :: S) ('*' :: '/' :: rest) :=
      scan_commented (by simp) (by simp) (by simp [isBreak])
    exact hblank.trans (scan_uncomment S rest)
  | cons c chars ih =>
    obtain ⟨hmark, hchain⟩ := List.isChain_cons.1 hm
    have hmore := ih hchain fun d hd => hb d (List.mem_cons_of_mem _ hd)
    -- the next character is one of the text, or the blank after it
    have hnext : ∀ d ∈ (chars ++ ' ' :: '*' :: '/' :: rest).head?,
        ¬ (c = '/' ∧ d = '*') ∧ ¬ (c = '*' ∧ d = '/') := by
      intro d hd
      cases chars with
      | nil =>
        cases hd
        simp
      | cons first more => exact hmark d (by simpa using hd)
    refine (scan_commented (fun hc d hd => ?_) (fun hc d hd => ?_)
      (hb c List.mem_cons_self)).trans hmore
    · exact fun hstar => (hnext d hd).1 ⟨hc, hstar⟩
    · exact fun hslash => (hnext d hd).2 ⟨hc, hslash⟩

theorem solid_comment (hm : Unmarked text.toList) (hr : '\r' ∉ text.toList) :
    Solid [] [] ("/* " ++ text ++ " */") where
  no_return := by simpa using hr
  scan_eq S rest hS hn _ := by
    have hline : ∀ c ∈ ' ' :: text.toList, isBreak c → .line ∉ S := by
      intro c hc hbreak
      have hbreaks : c = '\n' ∨ c = '\r' := by simpa [isBreak] using hbreak
      rcases hbreaks with rfl | rfl
      · exact hn (by simpa using hc)
      · simp [hr] at hc
    have hblank : Unmarked (' ' :: text.toList) := hm.cons (by simp)
    have hinside := scan_unmarked hblank hline rest
    have hopen := scan_comment hS (' ' :: text.toList ++ ' ' :: '*' :: '/' :: rest)
    simpa using hopen.trans hinside

/-- **A comment between fixed pieces.** -/
theorem Leads.comment {opening closing : String} (before after : List Char)
    (ho : opening.toList = before ++ ['/', '*', ' '])
    (hc : closing.toList = [' ', '*', '/'] ++ after) (hb : glide [] before = some [])
    (ha : glide [] after = some []) (hm : Unmarked text.toList) (hr : '\r' ∉ text.toList) :
    Solid [] [] (opening ++ text ++ closing) := by
  have hsplit : opening ++ text ++ closing =
      String.ofList before ++ ("/* " ++ text ++ " */") ++ String.ofList after := by
    apply String.toList_injective
    simp [ho, hc]
  have hbefore : Solid [] [] (String.ofList before) := .of_glide (by simpa using hb)
  have hafter : Solid [] [] (String.ofList after) := .of_glide (by simpa using ha)
  rw [hsplit]
  exact (hbefore.append (solid_comment hm hr)).append hafter

/-- A comment after a text, between fixed pieces. -/
theorem Leads.thenComment {opening closing : String} (ha : Solid p [] a) (before after : List Char)
    (ho : opening.toList = before ++ ['/', '*', ' '])
    (hc : closing.toList = [' ', '*', '/'] ++ after) (hb : glide [] before = some [])
    (hg : glide [] after = some []) (hm : Unmarked text.toList) (hr : '\r' ∉ text.toList) :
    Solid p [] (a ++ opening ++ text ++ closing) := by
  have hsplit : a ++ opening ++ text ++ closing = a ++ (opening ++ text ++ closing) := by
    simp only [String.append_assoc]
  rw [hsplit]
  exact ha.append (.comment before after ho hc hb hg hm hr)

/-! ### String literals -/

/-- **What can stand inside a string literal** of either kind, with line breaks only if the literal
may have some. -/
structure Content (text : String) : Prop where
  no_return : '\r' ∉ text.toList
  no_quote : text.toList.head? ≠ some '"'
  scan_eq : ∀ (frame : Frame) (S : List Frame) (rest : List Char), frame.isString →
    ('\n' ∈ text.toList → .line ∉ frame :: S) →
      scan (frame :: S) (text.toList ++ rest) = scan (frame :: S) rest

theorem content_empty : Content "" := ⟨by simp, by simp, fun _ _ _ _ _ => rfl⟩

theorem Content.append (ha : Content a) (hb : Content b) : Content (a ++ b) where
  no_return := by simp [ha.no_return, hb.no_return]
  no_quote := by
    rw [String.toList_append, List.head?_append]
    cases hh : a.toList.head? with
    | none => exact hb.no_quote
    | some c =>
      have := ha.no_quote
      rw [hh] at this
      simpa using this
  scan_eq frame S rest hf hn := by
    simp only [String.toList_append, List.mem_append] at hn
    rw [String.toList_append, List.append_assoc,
      ha.scan_eq frame S _ hf fun h => hn (.inl h), hb.scan_eq frame S rest hf fun h => hn (.inr h)]

/-- One character as a literal shows it. -/
theorem content_escapeChar (c : Char) : Content (String.ofList (escapeChar c)) := by
  unfold escapeChar
  split
  · exact ⟨by simp, by simp, fun _ _ _ hf _ => by simpa using scan_escaped hf (.inr rfl) _⟩
  · exact ⟨by simp, by simp, fun _ _ _ hf _ => by simpa using scan_escaped hf (.inl rfl) _⟩
  · exact ⟨by simp, by simp, fun _ _ _ hf _ => by simpa using scan_spelled hf _⟩
  · rename_i hslash hquote hreturn
    refine ⟨by simpa using fun h => hreturn h.symm, by simpa using hquote, ?_⟩
    intro frame S rest hf hn
    simp only [String.toList_ofList, List.mem_singleton] at hn
    have hbreak : isBreak c → .line ∉ frame :: S := by
      intro hb
      have hbreaks : c = '\n' ∨ c = '\r' := by simpa [isBreak] using hb
      exact hn (hbreaks.resolve_right hreturn).symm
    simpa using scan_content hf hquote hslash hbreak rest

/-- **Escaped text can stand in a literal**, whatever it is. -/
theorem content_escape (raw : String) : Content (escape raw) := by
  unfold escape
  induction raw.toList with
  | nil => exact content_empty
  | cons c rest ih =>
    rw [List.flatMap_cons, String.ofList_append]
    exact (content_escapeChar c).append ih

/-- An interpolation. -/
theorem content_interpolation (h : Neutral text) : Content ("\\(" ++ text ++ ")") where
  no_return := by simpa using h.no_return
  no_quote := by simp
  scan_eq frame S rest hf hn := by
    have hopen : scan (frame :: S) ('\\' :: '(' :: (text.toList ++ ')' :: rest)) = _ :=
      scan_interpolation hf _
    -- between the brackets it is code again, in either kind of literal
    have hcode : scan (.bracket .round :: frame :: S) (text.toList ++ ')' :: rest) =
        scan (.bracket .round :: frame :: S) (')' :: rest) :=
      h.scan_eq (.bracket .round :: frame :: S) _ rfl
        (fun hm => by simpa using hn (by simpa using hm)) (by simp [Apart])
    have hclose : scan (.bracket .round :: frame :: S) (')' :: rest) = scan (frame :: S) rest :=
      scan_closing rfl _ _
    simpa using hopen.trans (hcode.trans hclose)

/-- **A literal around contents**, on one line if they allow it. -/
theorem Content.wrap (h : Content text) : Neutral (wrap text) := by
  unfold Swift.wrap
  split
  next hnew =>
    refine ⟨by simpa using h.no_return, fun S rest hS hn _ => ?_⟩
    have hline : .line ∉ Frame.block :: S := by simpa using hn (by simp)
    have hbreak (more : List Char) :
        scan (.block :: S) ('\n' :: more) = scan (.block :: S) more :=
      scan_content (.inr rfl) (by decide) (by decide) (fun _ => hline) more
    calc scan S (("\"\"\"\n" ++ text ++ "\n\"\"\"").toList ++ rest)
        = scan S
            ('"' :: '"' :: '"' :: '\n' :: (text.toList ++ '\n' :: '"' :: '"' :: '"' :: rest)) := by
          simp
      _ = scan (.block :: S) (text.toList ++ '\n' :: '"' :: '"' :: '"' :: rest) := by
          rw [scan_quotes hS, hbreak]
      _ = scan (.block :: S) ('\n' :: '"' :: '"' :: '"' :: rest) :=
          h.scan_eq .block S _ (.inr rfl) fun _ => hline
      _ = scan S rest := by rw [hbreak, scan_unquotes]
  next hnew =>
    refine ⟨by simpa using h.no_return, fun S rest hS hn hrest => ?_⟩
    -- two quotes in a row are an empty literal, since no third one follows
    have hquote : ∀ more, text.toList ++ '"' :: rest ≠ '"' :: '"' :: more := by
      intro more heq
      cases htext : text.toList with
      | nil =>
        rw [htext] at heq
        have := hrest '"' (by simp_all)
        simp at this
      | cons c chars =>
        have := h.no_quote
        simp_all
    calc scan S (("\"" ++ text ++ "\"").toList ++ rest)
        = scan S ('"' :: (text.toList ++ '"' :: rest)) := by simp
      _ = scan (.line :: S) (text.toList ++ '"' :: rest) := scan_quote hS hquote
      _ = scan (.line :: S) ('"' :: rest) :=
          h.scan_eq .line S _ (.inl rfl) fun hm => absurd hm hnew
      _ = scan S rest := scan_unquote S rest

/-- **A string literal**, whatever its text is. -/
theorem neutral_quote (raw : String) : Neutral (quote raw) := (content_escape raw).wrap

end Pieces

end SwiftScribe.Swift
