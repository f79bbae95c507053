import AcsOutline.Span
import AcsOutline.Text.Blank
import AcsOutline.Text.Breaks

/-!
# Trivia

What may stand between tokens: line breaks, blank characters and the two sorts of comment.  A
`SkipMask` says which of them are skipped; each thing skipped is kept as a `Trivia`, so that
documentation and notes can be found in the comments later.

`Trivia.extent` measures the trivia at the start of a text as `Lexeme.extent` measures a
lexeme.  A block comment without an end runs to the end of the input.
-/

namespace AcsOutline

/-- The sorts of trivia. -/
inductive TriviaKind where
  | newline
  | whitespace
  | lineComment
  | blockComment
deriving DecidableEq, Inhabited

namespace TriviaKind

/-- Whether a sort of trivia is a comment. -/
def isComment : TriviaKind → Bool
  | lineComment | blockComment => true
  | newline | whitespace => false

end TriviaKind

/-- Which sorts of trivia are skipped between tokens. -/
structure SkipMask where
  /-- Line breaks are skipped. -/
  newlines : Bool
  /-- Blank characters other than line breaks are skipped. -/
  blanks : Bool
  /-- Comments from `//` to the end of the line are skipped. -/
  lineComments : Bool
  /-- Comments from `/*` to `*/` are skipped. -/
  blockComments : Bool
deriving DecidableEq, Inhabited

namespace SkipMask

/-- Every sort of trivia is skipped. -/
def all : SkipMask :=
  ⟨true, true, true, true⟩

/-- The mask with given bits: 1 for line breaks, 2 for blank characters, 4 for line comments
and 8 for block comments. -/
def ofBits (n : Nat) : SkipMask :=
  ⟨n.testBit 0, n.testBit 1, n.testBit 2, n.testBit 3⟩

/-- The bits of a mask. -/
def bits (m : SkipMask) : Nat :=
  m.newlines.toNat + 2 * m.blanks.toNat + 4 * m.lineComments.toNat + 8 * m.blockComments.toNat

end SkipMask

/-- Something skipped between two tokens. -/
structure Trivia where
  kind : TriviaKind
  /-- The text; of a comment without its markers. -/
  text : String
  /-- Where it stands, markers included. -/
  span : Span
  line : Nat
deriving DecidableEq, Inhabited

namespace Trivia

/-- What a block comment holds, given the text after its opening mark. -/
def commentBody : List Char → List Char
  | [] => []
  | '*' :: '/' :: _ => []
  | c :: cs => c :: commentBody cs

/-- Whether a character is part of a line break. -/
def isBreak (c : Char) : Bool :=
  c == '\n' || c == '\r'

/-- The sort of the trivia that begins with `c` before `cs`, if the mask has it skipped, and
how many characters of `cs` belong to it.  The closing mark of a block comment is counted even
where the input ends before it. -/
def extent (mask : SkipMask) (c : Char) (cs : List Char) : Option (TriviaKind × Nat) :=
  if mask.newlines ∧ c = '\n' then
    some (.newline, 0)
  else if mask.newlines ∧ c = '\r' then
    some (.newline, if cs.head? = some '\n' then 1 else 0)
  else if mask.blanks ∧ Text.isBlank c ∧ !isBreak c then
    some (.whitespace, 0)
  else if mask.lineComments ∧ c = '/' ∧ cs.head? = some '/' then
    some (.lineComment, (cs.tail.takeWhile (!isBreak ·)).length + 1)
  else if mask.blockComments ∧ c = '/' ∧ cs.head? = some '*' then
    some (.blockComment, (commentBody cs.tail).length + 3)
  else
    none

/-- The sort and spelling of the trivia at the start of a text, and what is left after it. -/
def read? (mask : SkipMask) : List Char → Option (TriviaKind × List Char × List Char)
  | [] => none
  | c :: cs => (extent mask c cs).map fun (kind, n) => (kind, c :: cs.take n, cs.drop n)

/-- The text of trivia with a given spelling: what a comment holds, or the spelling itself. -/
def textOf (kind : TriviaKind) (spelling : List Char) : List Char :=
  match kind with
  | .newline | .whitespace => spelling
  | .lineComment => spelling.drop 2
  | .blockComment => commentBody (spelling.drop 2)

/-- How many lines trivia goes on for. -/
def lineBreaks (kind : TriviaKind) (text : List Char) : Nat :=
  match kind with
  | .newline => 1
  | .blockComment => Text.countBreaks text
  | .whitespace | .lineComment => 0

/-- Trivia and what is left after it make up the text. -/
theorem read?_append {mask : SkipMask} {cs : List Char} {kind : TriviaKind}
    {spelling rest : List Char} (h : read? mask cs = some (kind, spelling, rest)) :
    spelling ++ rest = cs := by
  cases cs with
  | nil => simp [read?] at h
  | cons c cs =>
    simp only [read?, Option.map_eq_some_iff] at h
    obtain ⟨⟨k, n⟩, -, h⟩ := h
    simp only [Prod.mk.injEq] at h
    obtain ⟨-, rfl, rfl⟩ := h
    simp

/-- Trivia makes the text shorter. -/
theorem read?_rest_length {mask : SkipMask} {cs : List Char} {kind : TriviaKind}
    {spelling rest : List Char} (h : read? mask cs = some (kind, spelling, rest)) :
    rest.length < cs.length := by
  cases cs with
  | nil => simp [read?] at h
  | cons c cs =>
    simp only [read?, Option.map_eq_some_iff] at h
    obtain ⟨⟨k, n⟩, -, h⟩ := h
    simp only [Prod.mk.injEq] at h
    obtain ⟨-, -, rfl⟩ := h
    simp only [List.length_drop, List.length_cons]
    omega

end Trivia

end AcsOutline
