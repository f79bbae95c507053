import AcsOutline.Toml.Moment
import AcsOutline.Toml.Quoted

/-!
# TOML syntax

A document is a list of statements, one on a line: a key with its value, the header of a
table, or the header of an element of an array of tables.  `Statement.ofText?` reads them.
What tables they make up is decided in `Toml.Document`.

Every reader takes a text and gives what it reads and what is left, or nothing where the text
is not well formed.
-/

namespace AcsOutline.Toml

/-- A value as it is written. -/
inductive Literal where
  | text (s : String)
  /-- A number or a boolean. -/
  | scalar (spelling : String)
  /-- A point in time. -/
  | moment (spelling : String)
  | list (items : List Literal)
  /-- Dotted keys with their values. -/
  | inlineTable (entries : List (List String × Literal))
deriving Inhabited

/-- One line of a document. -/
inductive Statement where
  /-- `a.b = value`. -/
  | assign (key : List String) (value : Literal)
  /-- `[a.b]`. -/
  | header (key : List String)
  /-- `[[a.b]]`. -/
  | element (key : List String)
deriving Inhabited

namespace Syntax

/-- How many parts a key may have, and how deep lists and inline tables may stand in each other. -/
def nestingLimit : Nat := 80

/-! ## Keys -/

/-- A string as text. -/
def asText (r : List Char × List Char) : String × List Char :=
  (String.ofList r.1, r.2)

/-- Whether a character may stand in a key without quotes. -/
def isKeyChar (c : Char) : Bool :=
  c.isAlphanum || c = '_' || c = '-'

/-- One part of a key. -/
def keyPart? (cs : List Char) : Option (String × List Char) :=
  match cs with
  | '"' :: cs => asText <$> basicString? (cs.length + 1) cs
  | '\'' :: cs => asText <$> literalString? cs
  | cs =>
    match cs.takeWhile isKeyChar with
    | [] => none
    | s => some (String.ofList s, cs.dropWhile isKeyChar)

/-- The parts of a key with points between them, and what is left after the blank space behind
them. -/
def keyParts? : Nat → List Char → Option (List String × List Char)
  | 0, _ => none
  | fuel + 1, cs => do
    let (part, cs) ← keyPart? (skipSpaces cs)
    match skipSpaces cs with
    | '.' :: cs =>
      let (parts, cs) ← keyParts? fuel cs
      return (part :: parts, cs)
    | cs => return ([part], cs)

/-- A key, and what is left after the blank space behind it. -/
def key? (cs : List Char) : Option (List String × List Char) := do
  let (parts, cs) ← keyParts? cs.length cs
  if parts.length ≤ nestingLimit then some (parts, cs) else none

/-! ## Values -/

/-- A string with what stands before it, its opening quotes. -/
def string? : List Char → Option (String × List Char)
  | '"' :: '"' :: '"' :: cs => asText <$> longBasic? (cs.length + 1) (dropBreak cs)
  | '\'' :: '\'' :: '\'' :: cs => asText <$> longLiteral? (cs.length + 1) (dropBreak cs)
  | '"' :: cs => asText <$> basicString? (cs.length + 1) cs
  | '\'' :: cs => asText <$> literalString? cs
  | _ => none

/-- Whether a text is a number or a boolean. -/
def isScalar (cs : List Char) : Bool :=
  cs == "true".toList || cs == "false".toList || Number.isInteger cs || Number.isFloat cs

/-- Whether a character may stand in a value without quotes. -/
def isBareChar (c : Char) : Bool :=
  c.isAlphanum || c = '_' || c = '-' || c = '+' || c = '.' || c = ':'

/-- The characters of a value without quotes, and what is left.  Only between a date and a time
there may be a space. -/
def bare (cs : List Char) : List Char × List Char :=
  let word := cs.takeWhile isBareChar
  match cs.dropWhile isBareChar with
  | ' ' :: rest =>
    if Moment.isDate word && (rest.head?).any Char.isDigit then
      (word ++ ' ' :: rest.takeWhile isBareChar, rest.dropWhile isBareChar)
    else (word, ' ' :: rest)
  | rest => (word, rest)

/-- A number, a boolean or a point in time. -/
def bareValue? (cs : List Char) : Option (Literal × List Char) :=
  let (word, rest) := bare cs
  if isScalar word then some (.scalar (String.ofList word), rest)
  else if Moment.isMoment word then some (.moment (String.ofList word), rest)
  else none

mutual

/-- A value; `room` says how deep it may still hold others. -/
def value? : Nat → Nat → List Char → Option (Literal × List Char)
  | 0, _, _ => none
  | fuel + 1, room, cs =>
    match cs, room with
    | '[' :: cs, room + 1 => (items? fuel room cs).map fun (items, cs) => (.list items, cs)
    | '{' :: cs, room + 1 =>
      (fields? fuel room cs).map fun (entries, cs) => (.inlineTable entries, cs)
    | '"' :: _, _ => (string? cs).map fun (s, cs) => (.text s, cs)
    | '\'' :: _, _ => (string? cs).map fun (s, cs) => (.text s, cs)
    | cs, _ => bareValue? cs

/-- The rest of a list, up to its closing bracket. -/
def items? : Nat → Nat → List Char → Option (List Literal × List Char)
  | 0, _, _ => none
  | fuel + 1, room, cs =>
    match skipFill cs with
    | ']' :: cs => some ([], cs)
    | cs => do
      let (item, cs) ← value? fuel room cs
      match skipFill cs with
      | ']' :: cs => return ([item], cs)
      | ',' :: cs =>
        let (items, cs) ← items? fuel room cs
        return (item :: items, cs)
      | _ => none

/-- The rest of an inline table, up to its closing brace. -/
def fields? : Nat → Nat → List Char → Option (List (List String × Literal) × List Char)
  | 0, _, _ => none
  | fuel + 1, room, cs =>
    match skipFill cs with
    | '}' :: cs => some ([], cs)
    | cs => do
      let (field, cs) ← keyValue? skipFill fuel room cs
      match skipFill cs with
      | '}' :: cs => return ([field], cs)
      | ',' :: cs =>
        let (fields, cs) ← fields? fuel room cs
        return (field :: fields, cs)
      | _ => none

/-- A key, an equals sign and a value; `skip` passes over what may stand around the sign. -/
def keyValue? (skip : List Char → List Char) :
    Nat → Nat → List Char → Option ((List String × Literal) × List Char)
  | 0, _, _ => none
  | fuel + 1, room, cs => do
    let (key, cs) ← key? cs
    match skip cs with
    | '=' :: cs =>
      let (value, cs) ← value? fuel room (skip cs)
      return ((key, value), cs)
    | _ => none

end

/-! ## Statements -/

/-- The header of a table after its first bracket. -/
def header? (cs : List Char) : Option (Statement × List Char) := do
  let (key, cs) ← key? cs
  match cs with
  | ']' :: cs => return (.header key, cs)
  | _ => none

/-- The header of an element of an array of tables after its first brackets. -/
def element? (cs : List Char) : Option (Statement × List Char) := do
  let (key, cs) ← key? cs
  match cs with
  | ']' :: ']' :: cs => return (.element key, cs)
  | _ => none

/-- A statement, without the rest of its line. -/
def statement? (cs : List Char) : Option (Statement × List Char) :=
  match cs with
  | '[' :: '[' :: cs => element? cs
  | '[' :: cs => header? cs
  | cs =>
    (keyValue? skipSpaces (cs.length + 1) nestingLimit cs).map fun ((key, value), cs) =>
      (.assign key value, cs)

/-- Statements, each on a line of its own among empty lines. -/
def statements? : Nat → List Char → Option (List Statement)
  | 0, _ => none
  | fuel + 1, cs =>
    match skipFill cs with
    | [] => some []
    | '#' :: cs => if (skipComment ('#' :: cs)).isEmpty then some [] else none
    | cs => do
      let (s, cs) ← statement? cs
      let cs ← endLine? cs
      let ss ← statements? fuel cs
      return s :: ss

end Syntax

/-- The statements of a document; a byte order mark at its start is passed over. -/
def Statement.ofText? (text : String) : Option (List Statement) :=
  let cs := match text.toList with
    | '\uFEFF' :: cs => cs
    | cs => cs
  Syntax.statements? (cs.length + 1) cs

end AcsOutline.Toml
