import AcsOutline.Doc
import AcsOutline.Fault
import AcsOutline.Text.Alphanumeric
import AcsOutline.Text.Blank

/-!
# Documentation comments

A block comment that starts with a further asterisk is a documentation comment.  Its lines end
at line feeds; blank characters and asterisks at their start are decoration, blank characters at
their end are left out.  Text belongs to sections: the first one is the summary, and a line that
starts with `@` and a tag opens another one.

`Doc.ofComment` goes through the lines once and keeps the open section with its text so far;
the section is stored when the next one opens and at the end.
-/

namespace AcsOutline

namespace Doc

/-- The sections of a documentation comment. -/
inductive Section where
  | summary
  | parameter
  | returns
  | hidden
deriving DecidableEq, Inhabited

namespace Section

/-- The tags and the sections that they open. -/
def tags : List (String × Section) :=
  [("summary", summary), ("description", summary), ("param", parameter), ("return", returns),
    ("returns", returns), ("hidden", hidden)]

/-- The section that a tag opens, ignoring the case of ASCII letters. -/
def ofTag? (tag : String) : Option Section :=
  (tags.find? fun (name, _) => Text.sameWord name tag).map (·.2)

end Section

/-- Whether the text of a block comment makes it a documentation comment. -/
def isComment (text : String) : Bool :=
  text.toList.head? == some '*'

/-- The parameter that the text of its section describes: the first word is the name. -/
def parameterOf (text : List Char) : DocParameter :=
  let name := text.takeWhile (!Text.isBlank ·)
  match text.dropWhile (!Text.isBlank ·) with
  | [] => ⟨String.ofList name, none⟩
  | _ :: rest => ⟨String.ofList name, some (String.ofList (Text.trim rest))⟩

/-- Adds a section with its text.  A hidden section counts even without text, any other one
only with text; a summary or a return section replaces an earlier one. -/
def store (d : Doc) (s : Section) (text : List Char) : Doc :=
  let text := Text.trim text
  match s with
  | .hidden => { d with isHidden := true }
  | .summary => if text.isEmpty then d else { d with summary := some (String.ofList text) }
  | .returns => if text.isEmpty then d else { d with returns := some (String.ofList text) }
  | .parameter =>
    if text.isEmpty then d else { d with parameters := d.parameters ++ [parameterOf text] }

/-- A line without the decoration at its start and the blank characters at its end. -/
def undecorate (line : List Char) : List Char :=
  Text.trimEnd (line.dropWhile fun c => Text.isBlank c || c == '*')

/-- The sections stored so far and the open one. -/
structure Progress where
  /-- The documentation stored so far. -/
  doc : Doc
  /-- The open section. -/
  current : Section
  /-- The text of the open section so far. -/
  text : List Char

namespace Progress

/-- Nothing is read and the summary is open. -/
def start : Progress :=
  ⟨.empty, .summary, []⟩

/-- Stores the open section. -/
def close (p : Progress) : Doc :=
  p.doc.store p.current p.text

/-- Adds text to the open section, after a space where there is text already. -/
def add (p : Progress) (text : List Char) : Progress :=
  if text.isEmpty then p
  else { p with text := if p.text.isEmpty then text else p.text ++ ' ' :: text }

/-- Reads one line.  A tag is the longest run of alphanumeric characters after `@`. -/
def readLine (comment : Span) (p : Progress) (line : List Char) : Except Fault Progress :=
  match undecorate line with
  | '@' :: tagged =>
    let tag := String.ofList (tagged.takeWhile Text.isAlphanumeric)
    match Section.ofTag? tag with
    | none => .error (.unknownTag tag comment)
    | some s =>
      .ok (Progress.add ⟨p.close, s, []⟩
        (Text.trimStart (tagged.dropWhile Text.isAlphanumeric)))
  | text => .ok (p.add text)

end Progress

/-- Reads the text of a documentation comment that stands at `comment`. -/
def ofComment (text : String) (comment : Span) : Except Fault Doc :=
  let body := match text.toList with
    | '*' :: rest => rest
    | cs => cs
  ((body.splitOn '\n').foldlM (Progress.readLine comment) .start).map Progress.close

end Doc

end AcsOutline
