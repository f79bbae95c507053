import AcsOutline.Toml.Blank
import AcsOutline.Toml.Number

/-!
# Strings in TOML

A string stands in double quotes, where a backslash starts an escape, or in single quotes, where
nothing does.  Three quotes on each side make a string that may have line breaks; the first one
does not count if it follows the opening quotes at once, and up to two more quotes before the
closing ones belong to the string.

Every reader starts behind the opening quotes.
-/

namespace AcsOutline.Toml.Syntax

/-- A text with one more character before it. -/
def consFirst (c : Char) (r : List Char × List Char) : List Char × List Char :=
  (c :: r.1, r.2)

/-! ## Escapes -/

/-- The character that a given count of hexadecimal digits stands for, and what is left. -/
def hexEscape? (count : Nat) (cs : List Char) : Option (Char × List Char) :=
  let ds := cs.take count
  let n := Number.valueIn 16 ds
  if ds.length = count ∧ ds.all (Number.isDigitIn 16) ∧ n.isValidChar then
    some (Char.ofNat n, cs.drop count)
  else none

/-- What one character after a backslash stands for. -/
def escapes : List (Char × Char) :=
  [('b', '\x08'), ('t', '\t'), ('n', '\n'), ('f', '\x0c'), ('r', '\r'), ('e', '\x1b'),
    ('"', '"'), ('\\', '\\')]

/-- The character that an escape stands for, and what is left; the backslash is read already. -/
def escape? : List Char → Option (Char × List Char)
  | [] => none
  | 'x' :: cs => hexEscape? 2 cs
  | 'u' :: cs => hexEscape? 4 cs
  | 'U' :: cs => hexEscape? 8 cs
  | c :: cs => (escapes.lookup c).map (·, cs)

/-! ## Strings on one line -/

/-- The rest of a string in double quotes. -/
def basicString? : Nat → List Char → Option (List Char × List Char)
  | 0, _ => none
  | fuel + 1, cs =>
    match cs with
    | [] => none
    | '"' :: cs => some ([], cs)
    | '\\' :: cs => do
      let (c, cs) ← escape? cs
      consFirst c <$> basicString? fuel cs
    | c :: cs => if isPlain c then consFirst c <$> basicString? fuel cs else none

/-- The rest of a string in single quotes. -/
def literalString? : List Char → Option (List Char × List Char)
  | [] => none
  | '\'' :: cs => some ([], cs)
  | c :: cs => if isPlain c then consFirst c <$> literalString? cs else none

/-! ## Strings over several lines -/

/-- A text without the line break that it may start with. -/
def dropBreak (cs : List Char) : List Char :=
  (lineBreak? cs).getD cs

/-- What stands before the quotes that close a string of several lines and belongs to it, and what
follows them, if the text starts with such quotes. -/
def closing? (quote : Char) (cs : List Char) : Option (List Char × List Char) :=
  let quotes := cs.takeWhile (· = quote)
  if quotes.length < 3 then none
  else some (List.replicate (min (quotes.length - 3) 2) quote, cs.drop (min quotes.length 5))

/-- A text without the blank characters and line breaks that it starts with. -/
def dropBlankLines : Nat → List Char → List Char
  | 0, cs => cs
  | fuel + 1, cs =>
    match lineBreak? (skipSpaces cs) with
    | some cs => dropBlankLines fuel cs
    | none => skipSpaces cs

/-- A character or a line break that stands for itself, and what is left. -/
def plainOrBreak? (cs : List Char) : Option (List Char × List Char) :=
  match cs with
  | '\n' :: cs => some (['\n'], cs)
  | '\r' :: '\n' :: cs => some (['\r', '\n'], cs)
  | c :: cs => if isPlain c then some ([c], cs) else none
  | [] => none

/-- The rest of a string of several lines in double quotes.  A backslash at the end of a line
takes the blank space and the line breaks behind it out of the string. -/
def longBasic? : Nat → List Char → Option (List Char × List Char)
  | 0, _ => none
  | fuel + 1, cs =>
    match closing? '"' cs, cs with
    | some ending, _ => some ending
    | none, '\\' :: cs =>
      match lineBreak? (skipSpaces cs) with
      | some cs => longBasic? fuel (dropBlankLines cs.length cs)
      | none => do
        let (c, cs) ← escape? cs
        consFirst c <$> longBasic? fuel cs
    | none, cs => do
      let (here, cs) ← plainOrBreak? cs
      let (more, cs) ← longBasic? fuel cs
      return (here ++ more, cs)

/-- The rest of a string of several lines in single quotes. -/
def longLiteral? : Nat → List Char → Option (List Char × List Char)
  | 0, _ => none
  | fuel + 1, cs =>
    match closing? '\'' cs with
    | some ending => some ending
    | none => do
      let (here, cs) ← plainOrBreak? cs
      let (more, cs) ← longLiteral? fuel cs
      return (here ++ more, cs)

end AcsOutline.Toml.Syntax
