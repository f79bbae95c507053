import AcsOutline.Scanner.Lexeme
import AcsOutline.Scanner.Trivia
import AcsOutline.Text.Bytes

/-!
# The scanner

A `Scanner` walks over a source one token at a time.  `Scanner.next` skips the trivia that the
mask selects, keeps a record of it, and reads one token; along the way the scanner counts lines
and the depth of braces and parentheses.

`Scanner.remaining` measures what there is left to read.  Every `next` makes it smaller unless
the scanner stands at the end of input and stays there (`remaining_next_lt`), which is what
makes loops over tokens end.
-/

namespace AcsOutline

/-- The state of a walk over a source. -/
structure Scanner where
  source : List Char
  /-- The part of the source that is not read yet. -/
  rest : List Char
  /-- The byte offset at which that part starts. -/
  position : Nat
  /-- The line on which that part starts, counted from one. -/
  line : Nat
  /-- How many more opening than closing braces were read.  The count has no bounds; below 2 GiB no
  source takes it beyond 32 bits. -/
  braces : Int
  /-- How many more opening than closing parentheses were read, likewise without bounds. -/
  parens : Int
  /-- The sorts of trivia that are skipped before the next token. -/
  mask : SkipMask
  token : Token
  /-- The trivia skipped so far, the latest first. -/
  skipped : List Trivia
deriving DecidableEq, Inhabited

namespace Scanner

/-- A scanner at the start of a source, before the first token. -/
def ofList (source : List Char) : Scanner where
  source := source
  rest := source
  position := 0
  line := 1
  braces := 0
  parens := 0
  mask := .all
  token := .initial
  skipped := []

/-- A scanner at the start of a source, before the first token. -/
def ofString (source : String) : Scanner :=
  ofList source.toList

/-- The trivia skipped so far, in source order. -/
def trivia (s : Scanner) : List Trivia :=
  s.skipped.reverse

/-- The number of pieces of trivia skipped so far. -/
def triviaCount (s : Scanner) : Nat :=
  s.skipped.length

/-- The trivia skipped after the first `mark` pieces, in source order. -/
def triviaSince (s : Scanner) (mark : Nat) : List Trivia :=
  (s.skipped.take (s.skipped.length - mark)).reverse

/-- A scanner that skips other sorts of trivia from here on. -/
def withMask (s : Scanner) (mask : SkipMask) : Scanner :=
  { s with mask }

/-! ## Reading one token -/

/-- Moves past trivia with a given spelling and keeps a record of it. -/
def skip (s : Scanner) (kind : TriviaKind) (spelling rest : List Char) : Scanner :=
  let text := Trivia.textOf kind spelling
  let stop := s.position + Text.byteLength spelling
  { s with
    rest
    position := stop
    line := s.line + Trivia.lineBreaks kind text
    skipped := ⟨kind, String.ofList text, .ofEnds s.position stop, s.line⟩ :: s.skipped }

/-- Moves past all trivia that the mask selects. -/
def skipTrivia (s : Scanner) : Scanner :=
  match _h : Trivia.read? s.mask s.rest with
  | none => s
  | some (kind, spelling, rest) => (s.skip kind spelling rest).skipTrivia
termination_by s.rest.length
decreasing_by exact Trivia.read?_rest_length _h

theorem skipTrivia_of_none {s : Scanner} (h : Trivia.read? s.mask s.rest = none) :
    s.skipTrivia = s := by
  rw [skipTrivia]
  split
  · rfl
  next h' =>
    rw [h] at h'
    cases h'

theorem skipTrivia_of_some {s : Scanner} {kind : TriviaKind} {spelling rest : List Char}
    (h : Trivia.read? s.mask s.rest = some (kind, spelling, rest)) :
    s.skipTrivia = (s.skip kind spelling rest).skipTrivia := by
  rw [skipTrivia]
  split
  next h' =>
    rw [h] at h'
    cases h'
  next h' =>
    rw [h] at h'
    cases h'
    rfl

/-- How a token changes the depth of braces. -/
def braceStep : TokenKind → Int
  | .lbrace => 1
  | .rbrace => -1
  | _ => 0

/-- How a token changes the depth of parentheses. -/
def parenStep : TokenKind → Int
  | .lparen => 1
  | .rparen => -1
  | _ => 0

/-- How many lines a token goes on for. -/
def tokenBreaks (l : Lexeme) : Nat :=
  match l.kind with
  | .newline => 1
  | .string => Text.countBreaks l.spelling
  | _ => 0

/-- Reads the lexeme that the rest of the source starts with. -/
def readToken (s : Scanner) : Scanner :=
  let lexeme := (Lexeme.read s.rest).1
  let stop := s.position + Text.byteLength lexeme.spelling
  { s with
    rest := (Lexeme.read s.rest).2
    position := stop
    line := s.line + tokenBreaks lexeme
    braces := s.braces + braceStep lexeme.kind
    parens := s.parens + parenStep lexeme.kind
    token := ⟨lexeme.kind, lexeme.text, .ofEnds s.position stop, s.line⟩ }

/-- Reads the next token; at the end of input that is a token of its own. -/
def next (s : Scanner) : Scanner :=
  s.skipTrivia.readToken

/-- The token that follows, which stays unread. -/
def peek (s : Scanner) : Token :=
  s.next.token

/-! ## Progress -/

/-- What is left to read, twice the number of characters and one more for a token that is not
the end of input. -/
def remaining (s : Scanner) : Nat :=
  2 * s.rest.length + if s.token.kind = .eof then 0 else 1

theorem rest_skipTrivia_length_le (s : Scanner) :
    s.skipTrivia.rest.length ≤ s.rest.length := by
  fun_induction skipTrivia s with
  | case1 => exact Nat.le_refl _
  | case2 s kind spelling rest h ih =>
    exact Nat.le_trans ih (Nat.le_of_lt (Trivia.read?_rest_length h))

theorem rest_readToken_length_lt {s : Scanner} (h : s.readToken.token.kind ≠ .eof) :
    s.readToken.rest.length < s.rest.length :=
  Lexeme.read_rest_length h

theorem rest_readToken_of_eof {s : Scanner} (h : s.readToken.token.kind = .eof) :
    s.readToken.rest = s.rest :=
  Lexeme.read_rest_of_eof h

theorem rest_readToken_length_le (s : Scanner) :
    s.readToken.rest.length ≤ s.rest.length := by
  by_cases h : s.readToken.token.kind = .eof
  · exact Nat.le_of_eq (congrArg List.length (rest_readToken_of_eof h))
  · exact Nat.le_of_lt (rest_readToken_length_lt h)

/-- A token other than the end of input takes characters of the source. -/
theorem rest_next_length_lt {s : Scanner} (h : s.next.token.kind ≠ .eof) :
    s.next.rest.length < s.rest.length :=
  Nat.lt_of_lt_of_le (rest_readToken_length_lt h) (rest_skipTrivia_length_le s)

theorem rest_next_length_le (s : Scanner) : s.next.rest.length ≤ s.rest.length :=
  Nat.le_trans (rest_readToken_length_le s.skipTrivia) (rest_skipTrivia_length_le s)

/-- To read a token leaves less, unless the scanner is at the end of input and stays there. -/
theorem remaining_next_lt {s : Scanner}
    (h : s.token.kind ≠ .eof ∨ s.next.token.kind ≠ .eof) : s.next.remaining < s.remaining := by
  have hle := rest_next_length_le s
  by_cases hn : s.next.token.kind = .eof
  · have hs : s.token.kind ≠ .eof := h.resolve_right (· hn)
    simp only [remaining, hn, hs, if_true, if_false]
    omega
  · have hlt := rest_next_length_lt hn
    simp only [remaining, hn, if_false]
    omega

theorem remaining_next_le (s : Scanner) : s.next.remaining ≤ s.remaining := by
  by_cases h : s.token.kind ≠ .eof ∨ s.next.token.kind ≠ .eof
  · exact Nat.le_of_lt (remaining_next_lt h)
  · have hle := rest_next_length_le s
    rw [not_or, Decidable.not_not, Decidable.not_not] at h
    simp only [remaining, h.1, h.2, if_true]
    omega

end Scanner

end AcsOutline
