import SwiftScribe.Proofs.Formulas
import SwiftScribe.Proofs.Lexer
import SwiftScribe.Proofs.Quotes

/-!
# Reading templates back

A reader of Swift string literals with interpolations. The code of an interpolation ends at the
parenthesis that closes it, so the reader has to see through everything in the code that may hold
parentheses of its own: further parentheses, string literals and comments.

* `scanCode`, `Closed`: code in which parentheses, literals and comments are closed.
* `readChunks`, `unquoteChunks`: the reader. It hands back pieces of text and of code in turn.
* `readChunks_contents`: **what is written for a template is read piece by piece**, inside either
  kind of quotes.
* `Node.generate_template`: **a template is read back from its literal.**
-/

namespace SwiftScribe

namespace Swift

/-! ## Code -/

/-- **What is read next of some code**, with some frames open: how many more characters belong to
the first one, and what is open after them. Of the brackets only round ones count. There is nothing
to read if a parenthesis is closed that is not open, or a line ends inside a literal that has to end
on its line. -/
def token (stack : List Frame) (c : Char) (rest : List Char) : Option (Nat × List Frame) :=
  if c = '\n' ∧ .line ∈ stack then none
  else
    match modeOf stack with
    | .code =>
      match c, rest with
      | '(', _ => some (0, .bracket .round :: stack)
      | ')', _ => if stack.head? = some (.bracket .round) then some (0, stack.tail) else none
      | '"', '"' :: '"' :: _ => some (2, .block :: stack)
      | '"', _ => some (0, .line :: stack)
      | '/', '*' :: _ => some (1, .comment :: stack)
      | _, _ => some (0, stack)
    | .line =>
      match c, rest with
      | '"', _ => some (0, stack.tail)
      | '\\', '(' :: _ => some (1, .bracket .round :: stack)
      | '\\', '"' :: _ => some (1, stack)
      | '\\', '\\' :: _ => some (1, stack)
      | _, _ => some (0, stack)
    | .block =>
      match c, rest with
      | '"', '"' :: '"' :: _ => some (2, stack.tail)
      | '\\', '(' :: _ => some (1, .bracket .round :: stack)
      | '\\', '"' :: _ => some (1, stack)
      | '\\', '\\' :: _ => some (1, stack)
      | _, _ => some (0, stack)
    | .comment =>
      match c, rest with
      | '*', '/' :: _ => some (1, stack.tail)
      | '/', '*' :: _ => some (1, .comment :: stack)
      | _, _ => some (0, stack)
    | .remark => some (0, stack)

/-- **A scan of code**: what is open behind it. Some characters at the beginning may belong to what
was read before. -/
def scanCode : Nat → List Frame → List Char → Option (List Frame)
  | _, stack, [] => some stack
  | held + 1, stack, _ :: rest => scanCode held stack rest
  | 0, stack, c :: rest =>
    match token stack c rest with
    | some (held, stack) => scanCode held stack rest
    | none => none

/-- **Code that closes what it opens**, and nothing else. -/
def Closed (code : String) : Prop := scanCode 0 [] code.toList = some []

/-! ## The reader -/

/-- A piece of a literal with interpolations. -/
inductive Chunk where
  | text (chars : List Char)
  | code (chars : List Char)
deriving DecidableEq

def Chunk.behind (front : List Char) : Chunk → Chunk
  | .text chars => .text (front ++ chars)
  | .code chars => .code (front ++ chars)

/-- Characters in front of the first piece that was read. -/
def grow (front : List Char) : List Chunk × List Char → List Chunk × List Char
  | (chunk :: more, rest) => (chunk.behind front :: more, rest)
  | ([], rest) => ([], rest)

/-- A piece in front of those that were read. -/
def start (chunk : Chunk) (found : List Chunk × List Char) : List Chunk × List Char :=
  (chunk :: found.1, found.2)

/-- **The pieces up to the closing quotes**, and what follows them. The reader is in a piece of
text, or in the code of an interpolation with some frames open. No line may end between single
quotes, not even in code. -/
def readChunks (quotes : Quotes) :
    Option (Nat × List Frame) → List Char → Except Misquote (List Chunk × List Char)
  | _, [] => .error .unclosed
  | none, '\\' :: '(' :: rest => (readChunks quotes (some (0, [])) rest).map (start (.text []))
  | none, '\\' :: c :: rest =>
    match unescape? c with
    | some d => (readChunks quotes none rest).map (grow [d])
    | none => .error (.unknownEscape c)
  | none, '\r' :: _ => .error .carriageReturn
  | none, c :: rest =>
    match quotes, c, rest with
    | .single, '"', rest => .ok ([.text []], rest)
    | .single, '\n', _ => .error .newline
    | .triple, '\n', '"' :: '"' :: '"' :: rest => .ok ([.text []], rest)
    | .triple, '"', '"' :: '"' :: _ => .error .misplacedQuotes
    | _, c, _ => (readChunks quotes none rest).map (grow [c])
  | some (held, stack), c :: rest =>
    if quotes = .single ∧ c = '\n' then .error .newline
    else
      match held with
      | held + 1 => (readChunks quotes (some (held, stack)) rest).map (grow [c])
      | 0 =>
        if c = ')' ∧ stack = [] then (readChunks quotes none rest).map (start (.code []))
        else
          match token stack c rest with
          | some next => (readChunks quotes (some next) rest).map (grow [c])
          | none => .error .unclosed

/-- **A reader of string literals with interpolations:** the pieces of text and code in turn, and
what follows the literal. -/
def unquoteChunks : List Char → Except Misquote (List Chunk × List Char)
  | '"' :: '"' :: '"' :: '\n' :: '"' :: '"' :: '"' :: rest => .ok ([.text []], rest)
  | '"' :: '"' :: '"' :: '\n' :: rest => readChunks .triple none rest
  | '"' :: '"' :: '"' :: _ => .error .unopened
  | '"' :: rest => readChunks .single none rest
  | _ => .error .unopened

/-! ## Pieces -/

section Pieces

variable {quotes : Quotes} {c : Char} {rest : List Char} {found : List Chunk × List Char}

theorem grow_grow (front back : List Char) (found : List Chunk × List Char) :
    grow front (grow back found) = grow (front ++ back) found := by
  obtain ⟨chunks, rest⟩ := found
  cases chunks with
  | nil => rfl
  | cons chunk more => cases chunk <;> simp [grow, Chunk.behind]

theorem grow_nil (found : List Chunk × List Char) : grow [] found = found := by
  obtain ⟨chunks, rest⟩ := found
  cases chunks with
  | nil => rfl
  | cons chunk more => cases chunk <;> rfl

/-! ### Text -/

/-- An escaped character is read as the character. -/
theorem readChunks_escaped {d : Char} (hd : unescape? d = some c)
    (h : readChunks quotes none rest = .ok found) :
    readChunks quotes none ('\\' :: d :: rest) = .ok (grow [c] found) := by
  have hopen : d ≠ '(' := by
    rintro rfl
    cases hd
  rw [readChunks, hd, h]
  · rfl
  · exact hopen

/-- Any other character is read as itself, if it does not begin the end of the literal. -/
theorem readChunks_plain (hc : c ∉ ['\\', '"', '\r']) (hs : quotes = .single → c ≠ '\n')
    (ht : quotes = .triple → rest.head? ≠ some '"') (h : readChunks quotes none rest = .ok found) :
    readChunks quotes none (c :: rest) = .ok (grow [c] found) := by
  simp only [List.mem_cons, List.not_mem_nil, or_false, not_or] at hc
  rw [readChunks.eq_def]
  split
  · contradiction
  · simp_all
  · simp_all
  · simp_all
  · rename_i heq
    cases heq
    split <;> simp_all [Except.map]
  · simp_all

/-- **Text is read back**, between quotes that it can stand between. -/
theorem readChunks_text {raw : List Char} (hs : quotes = .single → '\n' ∉ raw)
    (ht : quotes = .triple → rest.head? ≠ some '"') (h : readChunks quotes none rest = .ok found) :
    readChunks quotes none (raw.flatMap escapeChar ++ rest) = .ok (grow raw found) := by
  induction raw with
  | nil => rw [grow_nil]; exact h
  | cons c more ih =>
    have hmore := ih fun hq hm => hs hq (List.mem_cons_of_mem c hm)
    have hhead : quotes = .triple → (more.flatMap escapeChar ++ rest).head? ≠ some '"' :=
      fun hq => head?_escaped_ne fun _ => ht hq
    have hline : quotes = .single → c ≠ '\n' := fun hq hc => hs hq (hc ▸ List.mem_cons_self)
    rw [List.flatMap_cons, List.append_assoc, ← List.singleton_append, ← grow_grow]
    rcases escapeChar_cases c with ⟨d, hc, hd⟩ | ⟨hplain, hc⟩
    · rw [hc]
      exact readChunks_escaped hd hmore
    · rw [hc]
      exact readChunks_plain hplain hline hhead hmore

/-! ### Code -/

/-- What is read next does not depend on a parenthesis further on. -/
theorem token_append (stack : List Frame) (c : Char) (chars rest : List Char) :
    token stack c (chars ++ ')' :: rest) = token stack c chars := by
  unfold token
  by_cases hbreak : c = '\n' ∧ .line ∈ stack
  · simp only [if_pos hbreak]
  simp only [if_neg hbreak]
  cases modeOf stack with
  | remark => rfl
  | code => rcases chars with _ | ⟨d, _ | ⟨e, more⟩⟩ <;> grind
  | line => rcases chars with _ | ⟨d, more⟩ <;> grind
  | block => rcases chars with _ | ⟨d, _ | ⟨e, more⟩⟩ <;> grind
  | comment => rcases chars with _ | ⟨d, more⟩ <;> grind

/-- The characters that belong together are there. -/
theorem held_le {stack next : List Frame} {held : Nat}
    (h : token stack c rest = some (held, next)) :
    held ≤ rest.length := by
  unfold token at h
  by_cases hbreak : c = '\n' ∧ .line ∈ stack
  · rw [if_pos hbreak] at h
    cases h
  rw [if_neg hbreak] at h
  cases hmode : modeOf stack <;> simp only [hmode] at h
  case remark => grind
  all_goals split at h <;> grind

/-- **Code that closes what it opens is read up to the parenthesis behind it**, from any place in
it. A parenthesis at the end of an interpolation is one that the code cannot close itself. -/
theorem readChunks_code {held : Nat} {stack : List Frame} {chars : List Char}
    (h : scanCode held stack chars = some []) (hheld : held ≤ chars.length)
    (hs : quotes = .single → '\n' ∉ chars) (hrest : readChunks quotes none rest = .ok found) :
    readChunks quotes (some (held, stack)) (chars ++ ')' :: rest) =
      .ok (grow chars (start (.code []) found)) := by
  have hline {c : Char} {more : List Char} (hs : quotes = .single → '\n' ∉ c :: more) :
      ¬ (quotes = .single ∧ c = '\n') := fun hq => hs hq.1 (hq.2 ▸ List.mem_cons_self)
  fun_induction scanCode held stack chars with
  | case1 held stack =>
    cases h
    obtain rfl : held = 0 := Nat.le_zero.1 hheld
    rw [List.nil_append, readChunks, if_neg (by simp), if_pos ⟨rfl, rfl⟩, hrest, grow_nil]
    rfl
  | case2 held stack c more ih =>
    have hmore := ih h (Nat.le_of_succ_le_succ hheld) fun hq hm => hs hq (List.mem_cons_of_mem c hm)
    rw [List.cons_append, readChunks, if_neg (hline hs), hmore]
    exact congrArg Except.ok (grow_grow [c] more _)
  | case3 stack c more held next htoken ih =>
    have hmore := ih h (held_le htoken) fun hq hm => hs hq (List.mem_cons_of_mem c hm)
    have hopen : ¬ (c = ')' ∧ stack = []) := by
      rintro ⟨rfl, rfl⟩
      cases htoken
    rw [List.cons_append, readChunks, if_neg (hline hs), if_neg hopen, token_append, htoken]
    show (readChunks quotes (some (held, next)) (more ++ ')' :: rest)).map (grow [c]) = _
    rw [hmore]
    exact congrArg Except.ok (grow_grow [c] more _)
  | case4 => cases h

/-- An interpolation begins behind the text before it. -/
theorem readChunks_open (h : readChunks quotes (some (0, [])) rest = .ok found) :
    readChunks quotes none ('\\' :: '(' :: rest) = .ok (start (.text []) found) := by
  rw [readChunks, h]
  rfl

/-- What opens a literal is one quote, unless two more follow. -/
theorem unquoteChunks_single (h : ∀ more, rest ≠ '"' :: '"' :: more) :
    unquoteChunks ('"' :: rest) = readChunks .single none rest := by
  unfold unquoteChunks
  split <;> simp_all

/-- Triple quotes open a literal that begins on the next line. -/
theorem unquoteChunks_triple (h : rest.head? ≠ some '"') :
    unquoteChunks ('"' :: '"' :: '"' :: '\n' :: rest) = readChunks .triple none rest := by
  rw [unquoteChunks.eq_def]
  split <;> grind

end Pieces

/-! ## Contents -/

/-- **What stands between the quotes** of a template with some texts and codes in turn. -/
def contents : List String → List String → String
  | [], _ => ""
  | text :: texts, [] => escape text ++ contents texts []
  | text :: texts, code :: codes => escape text ++ "\\(" ++ code ++ ")" ++ contents texts codes

/-- Texts and codes in turn. -/
def interleave : List String → List String → List Chunk
  | [], _ => []
  | text :: texts, [] => .text text.toList :: interleave texts []
  | text :: texts, code :: codes =>
    .text text.toList :: .code code.toList :: interleave texts codes

/-- What closes a literal. -/
def closing : Quotes → List Char
  | .single => ['"']
  | .triple => ['\n', '"', '"', '"']

section Contents

variable {quotes : Quotes} {texts codes : List String}

theorem toList_contents_cons (text code : String) (texts codes : List String) :
    (contents (text :: texts) (code :: codes)).toList =
      text.toList.flatMap escapeChar ++
        '\\' :: '(' :: (code.toList ++ ')' :: (contents texts codes).toList) := by
  simp [contents, escape]

/-- **The contents begin with no quote**, whatever the first text is. -/
theorem head?_contents_ne {tail : List Char} (h : tail.head? ≠ some '"')
    (hlength : texts.length = codes.length + 1) :
    ((contents texts codes).toList ++ tail).head? ≠ some '"' := by
  cases texts with
  | nil => cases hlength
  | cons text texts =>
    cases codes with
    | nil =>
      obtain rfl : texts = [] := List.length_eq_zero_iff.1 (Nat.succ.inj hlength)
      have hhead : (text.toList.flatMap escapeChar ++ tail).head? ≠ some '"' :=
        head?_escaped_ne fun _ => h
      simpa [contents, escape] using hhead
    | cons code codes =>
      rw [toList_contents_cons, List.append_assoc]
      exact head?_escaped_ne fun _ => by simp

/-- The contents span lines if one of the texts or of the codes does. -/
theorem newline_mem_contents_iff (hlength : texts.length = codes.length + 1) :
    '\n' ∈ (contents texts codes).toList ↔ ∃ part ∈ texts ++ codes, '\n' ∈ part.toList := by
  induction codes generalizing texts with
  | nil =>
    obtain ⟨text, rfl⟩ := List.length_eq_one_iff.1 hlength
    simpa [contents] using newline_mem_escape_iff text
  | cons code codes ih =>
    cases texts with
    | nil => cases hlength
    | cons text texts =>
      have hmore := ih (Nat.succ.inj hlength)
      have htext := newline_mem_escape_iff text
      simp only [contents, String.toList_append, List.mem_append, htext, hmore]
      simp
      grind

/-- **What is written for a template is read piece by piece**, inside quotes that it can stand
between. -/
theorem readChunks_contents (hlength : texts.length = codes.length + 1)
    (hclosed : ∀ code ∈ codes, Closed code)
    (hline : quotes = .single → ∀ part ∈ texts ++ codes, '\n' ∉ part.toList) :
    readChunks quotes none ((contents texts codes).toList ++ closing quotes) =
      .ok (interleave texts codes, []) := by
  induction codes generalizing texts with
  | nil =>
    obtain ⟨text, rfl⟩ := List.length_eq_one_iff.1 hlength
    have hend : readChunks quotes none (closing quotes) = .ok ([.text []], []) := by
      cases quotes <;> rfl
    have hhead : quotes = .triple → (closing quotes).head? ≠ some '"' := by
      rintro rfl
      decide
    have htext := readChunks_text (fun hq => hline hq text List.mem_cons_self) hhead hend
    simpa [contents, escape, grow, Chunk.behind, interleave] using htext
  | cons code codes ih =>
    cases texts with
    | nil => cases hlength
    | cons text texts =>
      have hmore := ih (Nat.succ.inj hlength)
        (fun other hm => hclosed other (List.mem_cons_of_mem code hm))
        (fun hq part hm => hline hq part (by simp at hm ⊢; tauto))
      have hcode := readChunks_code (hclosed code List.mem_cons_self) (Nat.zero_le _)
        (fun hq => hline hq code (by simp)) hmore
      -- the interpolation begins with a backslash
      have hopen := readChunks_open hcode
      have htext := readChunks_text (fun hq => hline hq text (by simp)) (fun _ => by simp) hopen
      rw [toList_contents_cons]
      simpa [grow, start, Chunk.behind, interleave] using htext

/-- **A literal around contents is read piece by piece**, whichever quotes it takes. They are triple
if a text or a code spans lines. -/
theorem unquoteChunks_wrap (hlength : texts.length = codes.length + 1)
    (hclosed : ∀ code ∈ codes, Closed code) :
    unquoteChunks (wrap (contents texts codes)).toList = .ok (interleave texts codes, []) ∧
      (['"', '"', '"'] <+: (wrap (contents texts codes)).toList ↔
        ∃ part ∈ texts ++ codes, '\n' ∈ part.toList) := by
  have hnewline := newline_mem_contents_iff hlength
  by_cases hlines : '\n' ∈ (contents texts codes).toList
  · have hread : readChunks .triple none ((contents texts codes).toList ++ closing .triple) = _ :=
      readChunks_contents hlength hclosed fun hq => nomatch hq
    have hhead : ((contents texts codes).toList ++ closing .triple).head? ≠ some '"' :=
      head?_contents_ne (by decide) hlength
    have htext : (wrap (contents texts codes)).toList =
        '"' :: '"' :: '"' :: '\n' :: ((contents texts codes).toList ++ closing .triple) := by
      rw [wrap, if_pos hlines]
      simp [closing]
    rw [htext, unquoteChunks_triple hhead]
    exact ⟨hread, iff_of_true (by simp) (hnewline.1 hlines)⟩
  · have hread : readChunks .single none ((contents texts codes).toList ++ closing .single) = _ :=
      readChunks_contents hlength hclosed fun _ part hm hn => hlines (hnewline.2 ⟨part, hm, hn⟩)
    have hopening (more : List Char) :
        (contents texts codes).toList ++ closing .single ≠ '"' :: '"' :: more := by
      intro heq
      have hhead : ((contents texts codes).toList ++ []).head? ≠ some '"' :=
        head?_contents_ne (by decide) hlength
      cases hchars : (contents texts codes).toList with
      | nil => simp [hchars, closing] at heq
      | cons c chars =>
        rw [hchars] at heq hhead
        exact hhead (congrArg some (List.cons.inj heq).1)
    have htext : (wrap (contents texts codes)).toList =
        '"' :: ((contents texts codes).toList ++ closing .single) := by
      rw [wrap, if_neg hlines]
      simp [closing]
    rw [htext, unquoteChunks_single hopening]
    refine ⟨hread, iff_of_false ?_ (mt hnewline.2 hlines)⟩
    rintro ⟨more, hmore⟩
    exact hopening more (List.cons.inj hmore).2.symm

end Contents

/-! ## Templates -/

/-- The draft of a template makes its contents. -/
theorem Gives.templateBody {answers : Answers} {codes : List String} {drafts : List (Draft String)}
    (quasis : List TemplateElement) (h : List.Forall₂ (Gives answers) codes drafts) :
    Gives answers (contents (quasis.map templateText) codes) (templateBody quasis drafts) := by
  induction quasis generalizing codes drafts with
  | nil => exact pure _
  | cons quasi rest ih =>
    cases h with
    | nil => exact (pure _).append (ih .nil)
    | cons hcode hcodes => exact (((pure _).append hcode).append (pure ")")).append (ih hcodes)

/-- The drafts of expressions make the codes that are generated for them. -/
theorem Gives.writeAll {path : TypePath} {hints records : HintTable} {expressions : List Node}
    {codes : List String} (h : List.Forall₂ (fun expression code =>
      (Node.generate path expression hints records).1 = .ok code) expressions codes) :
    List.Forall₂ (Gives hints.answer?) codes (writeAll path expressions) := by
  induction h with
  | nil => exact .nil
  | cons hcode _ ih =>
    rw [Node.generate_eq] at hcode
    exact .cons hcode ih

end Swift

open Swift

/-- **A template is read back from its literal**: its texts and the codes of its expressions in
turn. No text is lost, altered or taken for an interpolation, as long as the codes close what they
open. The literal is between triple quotes if a text or a code spans lines. -/
theorem Node.generate_template {path : TypePath} {hints records : HintTable}
    {quasis : List TemplateElement} {expressions : List Node} {codes : List String}
    (hlength : quasis.length = expressions.length + 1)
    (hcodes : List.Forall₂ (fun expression code =>
      (Node.generate path expression hints records).1 = .ok code) expressions codes)
    (hclosed : ∀ code ∈ codes, Closed code) :
    ∃ text, (Node.generate path (.templateLiteral ⟨quasis, expressions⟩) hints records).1 =
        .ok text ∧
      unquoteChunks text.toList = .ok (interleave (quasis.map templateText) codes, []) ∧
      (['"', '"', '"'] <+: text.toList ↔
        ∃ part ∈ quasis.map templateText ++ codes, '\n' ∈ part.toList) := by
  have hcount : (quasis.map templateText).length = codes.length + 1 := by
    rw [List.length_map, hlength, hcodes.length_eq]
  have hbody := Gives.templateBody quasis (Gives.writeAll hcodes)
  refine ⟨wrap (contents (quasis.map templateText) codes), ?_, unquoteChunks_wrap hcount hclosed⟩
  rw [Node.generate_eq]
  exact hbody.map wrap

/-- Texts of which the first looks like an interpolation and ends in a quote. The second one begins
a line and ends in a backslash. -/
def misleadingTexts : List TemplateElement :=
  [⟨⟨some "\\(x) \"", "\\(x) \""⟩, false⟩, ⟨⟨none, "\n\\"⟩, true⟩]

/-- A string that holds a parenthesis and a quote. -/
def Node.closingString : Node := .literal ⟨.str ")\"", "\")\\\"\"", none⟩

/-- The parenthesis of the string does not close the interpolation. -/
theorem Node.generate_template_misleading :
    (Node.generate [] (.templateLiteral ⟨misleadingTexts, [closingString]⟩) .empty .empty).1 =
        .ok "\"\"\"\n\\\\(x) \\\"\\(\")\\\"\")\n\\\\\n\"\"\"" ∧
      unquoteChunks "\"\"\"\n\\\\(x) \\\"\\(\")\\\"\")\n\\\\\n\"\"\"".toList =
        .ok ([.text "\\(x) \"".toList, .code "\")\\\"\"".toList, .text "\n\\".toList], []) := by
  have hcodes : List.Forall₂
      (fun expression code => (Node.generate [] expression .empty .empty).1 = .ok code)
      [closingString] ["\")\\\"\""] := .cons rfl .nil
  have hclosed : ∀ code ∈ ["\")\\\"\""], Closed code := by
    intro code hm
    rw [List.mem_singleton.1 hm]
    rfl
  have hlength : misleadingTexts.length = [closingString].length + 1 := rfl
  obtain ⟨text, htext, hread, -⟩ := generate_template hlength hcodes hclosed
  have hmade : (Node.generate [] (.templateLiteral ⟨misleadingTexts, [closingString]⟩) .empty
      .empty).1 = .ok "\"\"\"\n\\\\(x) \\\"\\(\")\\\"\")\n\\\\\n\"\"\"" := rfl
  obtain rfl := Except.ok.inj (hmade.symm.trans htext)
  exact ⟨hmade, hread⟩

end SwiftScribe
