import AcsOutline.Text.Blank
import AcsOutline.Token

/-!
# Lexemes

What the start of a text is read as.  `Lexeme.extent` gives the kind of the first lexeme and
how many characters it takes after its first one; `Lexeme.read` cuts it off.  `Lexeme.Shape`
lists the ways in which a lexeme begins.  The spelling and what is left make up the text again
(`read_append`), and only the end of input takes nothing (`spelling_eq_nil_iff`).

A string runs to the next quote, without escapes; a number is digits with embedded points and
underscores, perhaps after a minus sign; a word is ASCII letters, digits and underscores.  Any
other character is a symbol on its own, except that a NUL character ends the input.
-/

namespace AcsOutline

/-- A piece of source text and the kind that it is read as. -/
structure Lexeme where
  kind : TokenKind
  /-- The characters of the lexeme, the quotes of a string included. -/
  spelling : List Char
deriving DecidableEq, Inhabited

namespace Lexeme

/-- Whether a character may follow the first digit of a number. -/
def isNumberChar (c : Char) : Bool :=
  c.isDigit || c == '_' || c == '.'

/-- Whether a character belongs to words. -/
def isWordChar (c : Char) : Bool :=
  c.isAlphanum || c == '_'

/-- The characters that are tokens wherever they stand outside strings and comments. -/
def punctuation : List (Char × TokenKind) :=
  [('#', .hash), (',', .comma), (':', .colon), (';', .semicolon), ('=', .equals),
    ('(', .lparen), (')', .rparen), ('{', .lbrace), ('}', .rbrace), ('[', .lbracket),
    (']', .rbracket), ('.', .dot), ('$', .dollar)]

/-- The kind of the lexeme that begins with `c` before `cs`, and how many characters of `cs`
belong to it.  The closing quote of a string is counted even where the input ends before it. -/
def extent (c : Char) (cs : List Char) : TokenKind × Nat :=
  match punctuation.lookup c with
  | some kind => (kind, 0)
  | none =>
    if c = '\n' then (.newline, 0)
    else if c = '\r' then (.newline, if cs.head? = some '\n' then 1 else 0)
    -- line breaks are blank too, and have been told apart above
    else if Text.isBlank c then (.whitespace, 0)
    -- marks of comments are met only where the mask does not skip comments
    else if c = '/' ∧ cs.head? = some '/' then (.lineCommentStart, 1)
    else if c = '/' ∧ cs.head? = some '*' then (.blockCommentStart, 1)
    else if c = '*' ∧ cs.head? = some '/' then (.blockCommentEnd, 1)
    else if c = '"' then (.string, (cs.takeWhile (· ≠ '"')).length + 1)
    else if c.isDigit ∨ (c = '-' ∧ cs.head?.any Char.isDigit) then
      (.number, (cs.takeWhile isNumberChar).length)
    -- a dash is a sign only directly before a digit
    else if c = '-' then (.dash, 0)
    else if isWordChar c then
      let word := cs.takeWhile isWordChar
      (.ofWord (String.ofList (c :: word)), word.length)
    else (.symbol, 0)

/-- The first lexeme of a text and what is left after it.  At the end of input, or at a NUL
character, nothing is taken. -/
def read : List Char → Lexeme × List Char
  | [] => (⟨.eof, []⟩, [])
  | c :: cs =>
    if c = '\x00' then
      (⟨.eof, []⟩, c :: cs)
    else
      let (kind, n) := extent c cs
      (⟨kind, c :: cs.take n⟩, cs.drop n)

/-- The text of a lexeme: its spelling, of a string only what stands between the quotes. -/
def text (l : Lexeme) : String :=
  if l.kind = .string then
    String.ofList ((l.spelling.drop 1).takeWhile (· ≠ '"'))
  else
    String.ofList l.spelling

theorem read_cons {c : Char} (h : c ≠ '\x00') (cs : List Char) :
    read (c :: cs) =
      (⟨(extent c cs).1, c :: cs.take (extent c cs).2⟩, cs.drop (extent c cs).2) := by
  simp only [read, h, if_false]

/-- A lexeme and what is left after it make up the text. -/
theorem read_append (cs : List Char) : (read cs).1.spelling ++ (read cs).2 = cs := by
  cases cs with
  | nil => rfl
  | cons c cs =>
    by_cases h : c = '\x00'
    · simp [read, h]
    · simp [read, h]

theorem mem_of_lookup {c : Char} {kind : TokenKind} (h : punctuation.lookup c = some kind) :
    (c, kind) ∈ punctuation := by
  obtain ⟨before, after, hp, -⟩ := List.lookup_eq_some_iff.1 h
  simp [hp]

theorem kind_ne_eof_of_mem {c : Char} {kind : TokenKind} (h : (c, kind) ∈ punctuation) :
    kind ≠ .eof := by
  have hall : ∀ p ∈ punctuation, p.2 ≠ .eof := by decide
  exact hall (c, kind) h

/-- How a lexeme may begin, with `c` before `cs`, and what it is read as then. -/
inductive Shape (c : Char) (cs : List Char) : TokenKind × Nat → Prop
  | punctuation {kind : TokenKind} (h : Lexeme.punctuation.lookup c = some kind) :
      Shape c cs (kind, 0)
  | lineFeed (h : c = '\n') : Shape c cs (.newline, 0)
  | carriageReturn (h : c = '\r') :
      Shape c cs (.newline, if cs.head? = some '\n' then 1 else 0)
  | blank (h : Text.isBlank c = true) (hfeed : c ≠ '\n') (hreturn : c ≠ '\r') :
      Shape c cs (.whitespace, 0)
  | lineComment (h : c = '/') (hnext : cs.head? = some '/') : Shape c cs (.lineCommentStart, 1)
  | blockComment (h : c = '/') (hnext : cs.head? = some '*') : Shape c cs (.blockCommentStart, 1)
  | commentEnd (h : c = '*') (hnext : cs.head? = some '/') : Shape c cs (.blockCommentEnd, 1)
  | quote (h : c = '"') : Shape c cs (.string, (cs.takeWhile (· ≠ '"')).length + 1)
  | digit (h : c.isDigit = true) : Shape c cs (.number, (cs.takeWhile isNumberChar).length)
  | sign (h : c = '-') (hnext : cs.head?.any Char.isDigit = true) :
      Shape c cs (.number, (cs.takeWhile isNumberChar).length)
  | dash (h : c = '-') (hnext : ¬cs.head?.any Char.isDigit = true) : Shape c cs (.dash, 0)
  | word (h : isWordChar c = true) (hdigit : ¬c.isDigit = true) :
      Shape c cs (.ofWord (String.ofList (c :: cs.takeWhile isWordChar)),
        (cs.takeWhile isWordChar).length)
  | other (hpunctuation : Lexeme.punctuation.lookup c = none) (hblank : ¬Text.isBlank c = true)
      (hquote : c ≠ '"') (hdash : c ≠ '-') (hword : ¬isWordChar c = true) :
      Shape c cs (.symbol, 0)

/-- The extent of a lexeme is that of one of the shapes. -/
theorem shape_extent (c : Char) (cs : List Char) : Shape c cs (extent c cs) := by
  cases hlookup : punctuation.lookup c with
  | some kind =>
    simp only [extent, hlookup]
    exact .punctuation hlookup
  | none =>
    simp only [extent, hlookup]
    by_cases hfeed : c = '\n'
    · rw [if_pos hfeed]
      exact .lineFeed hfeed
    rw [if_neg hfeed]
    by_cases hreturn : c = '\r'
    · rw [if_pos hreturn]
      exact .carriageReturn hreturn
    rw [if_neg hreturn]
    by_cases hblank : Text.isBlank c = true
    · rw [if_pos hblank]
      exact .blank hblank hfeed hreturn
    rw [if_neg hblank]
    by_cases hline : c = '/' ∧ cs.head? = some '/'
    · rw [if_pos hline]
      exact .lineComment hline.1 hline.2
    rw [if_neg hline]
    by_cases hblock : c = '/' ∧ cs.head? = some '*'
    · rw [if_pos hblock]
      exact .blockComment hblock.1 hblock.2
    rw [if_neg hblock]
    by_cases hend : c = '*' ∧ cs.head? = some '/'
    · rw [if_pos hend]
      exact .commentEnd hend.1 hend.2
    rw [if_neg hend]
    by_cases hquote : c = '"'
    · rw [if_pos hquote]
      exact .quote hquote
    rw [if_neg hquote]
    by_cases hnumber : c.isDigit ∨ (c = '-' ∧ cs.head?.any Char.isDigit)
    · rw [if_pos hnumber]
      rcases hnumber with hdigit | ⟨hsign, hnext⟩
      · exact .digit hdigit
      · exact .sign hsign hnext
    rw [if_neg hnumber]
    by_cases hdash : c = '-'
    · rw [if_pos hdash]
      exact .dash hdash fun hnext => hnumber (Or.inr ⟨hdash, hnext⟩)
    rw [if_neg hdash]
    by_cases hword : isWordChar c = true
    · rw [if_pos hword]
      exact .word hword fun hdigit => hnumber (Or.inl hdigit)
    rw [if_neg hword]
    exact .other hlookup hblank hquote hdash hword

theorem extent_ne_eof (c : Char) (cs : List Char) : (extent c cs).1 ≠ .eof := by
  have hshape := shape_extent c cs
  generalize extent c cs = e at hshape ⊢
  cases hshape with
  | punctuation h => exact kind_ne_eof_of_mem (mem_of_lookup h)
  | word => exact TokenKind.ofWord_ne _ rfl
  | _ => exact TokenKind.noConfusion

/-- Only the end of input takes nothing. -/
theorem spelling_eq_nil_iff (cs : List Char) :
    (read cs).1.spelling = [] ↔ (read cs).1.kind = .eof := by
  cases cs with
  | nil => simp [read]
  | cons c cs =>
    by_cases h : c = '\x00'
    · simp [read, h]
    · simp [read, h, extent_ne_eof]

/-- The input ends where the text does, or at a NUL character. -/
theorem eq_nil_or_nul_of_eof {cs : List Char} (h : (read cs).1.kind = .eof) :
    cs = [] ∨ ∃ after, cs = '\x00' :: after := by
  cases cs with
  | nil => exact Or.inl rfl
  | cons c cs =>
    by_cases hc : c = '\x00'
    · exact Or.inr ⟨cs, by rw [hc]⟩
    · simp [read, hc, extent_ne_eof] at h

/-- The end of input leaves the text as it is. -/
theorem read_rest_of_eof {cs : List Char} (h : (read cs).1.kind = .eof) : (read cs).2 = cs := by
  have := read_append cs
  rwa [(spelling_eq_nil_iff cs).2 h, List.nil_append] at this

/-- Every other lexeme makes the text shorter. -/
theorem read_rest_length {cs : List Char} (h : (read cs).1.kind ≠ .eof) :
    (read cs).2.length < cs.length := by
  have happ := congrArg List.length (read_append cs)
  have hne : (read cs).1.spelling ≠ [] := fun e => h ((spelling_eq_nil_iff cs).1 e)
  have := List.length_pos_iff.2 hne
  rw [List.length_append] at happ
  omega

end Lexeme

end AcsOutline
