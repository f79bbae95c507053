/-!
# Blank space and comments in TOML

What may stand between the words of a document: blank characters within a line, comments up to
its end, and line breaks.  A carriage return is a line break only before a line feed.
-/

namespace AcsOutline.Toml.Syntax

/-- Whether a character may stand in comments and strings: it is no control character, or it
is a tab. -/
def isPlain (c : Char) : Bool :=
  c = '\t' || (0x20 ≤ c.toNat && c.toNat ≠ 0x7F)

/-- Whether a character is blank within a line. -/
def isSpace (c : Char) : Bool :=
  c = ' ' || c = '\t'

/-- A text without the blank characters of its line. -/
def skipSpaces (cs : List Char) : List Char :=
  cs.dropWhile isSpace

/-- A text after a line break, if it starts with one. -/
def lineBreak? : List Char → Option (List Char)
  | '\n' :: cs => some cs
  | '\r' :: '\n' :: cs => some cs
  | _ => none

/-- A text after the comment that it starts with, if any, at the end of the line. -/
def skipComment : List Char → List Char
  | '#' :: cs => cs.dropWhile isPlain
  | cs => cs

/-- A text after the rest of a line that holds nothing more than a comment. -/
def endLine? (cs : List Char) : Option (List Char) :=
  match skipComment (skipSpaces cs) with
  | [] => some []
  | cs => lineBreak? cs

/-- A text after any number of blank characters, comments and line breaks. -/
def skipFillFrom : Nat → List Char → List Char
  | 0, cs => cs
  | fuel + 1, cs =>
    match lineBreak? (skipComment (skipSpaces cs)) with
    | some rest => skipFillFrom fuel rest
    | none => skipSpaces cs

/-- A text after any number of blank characters, comments and line breaks. -/
def skipFill (cs : List Char) : List Char :=
  skipFillFrom cs.length cs

end AcsOutline.Toml.Syntax
