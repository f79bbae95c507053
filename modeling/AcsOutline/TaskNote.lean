import AcsOutline.Text.Ascii
import AcsOutline.Text.Blank

/-!
# Task notes

A line comment such as `// TODO: spawn the boss later` is a task note when its first word is
one of the chosen tags.  One punctuation character before the tag and one after it are left
out, so that `// @todo text` and `//! HACK: text` are task notes too.
-/

namespace AcsOutline

/-- Something that a comment leaves to do. -/
structure TaskNote where
  /-- The tag as it is written in the comment. -/
  tag : String
  text : String
  /-- The file of the comment. -/
  file : String
  /-- The line of the comment, counted from one. -/
  line : Nat
  /-- The label of the declaration that the comment stands in, if any. -/
  subject : Option String
deriving DecidableEq, Inhabited

namespace TaskNote

/-- A text without one punctuation character at its start and what is blank after it. -/
def stripMarker (cs : List Char) : List Char :=
  match cs with
  | [] => []
  | c :: rest => if Text.isPunctuation c then Text.trimStart rest else cs

/-- Whether a character can be part of a tag. -/
def isTagChar (c : Char) : Bool :=
  !Text.isBlank c && !Text.isPunctuation c

/-- The tag and the text of a line comment that starts with one of the tags. -/
def ofComment? (tags : List String) (comment : String) : Option (String × String) :=
  let body := stripMarker (Text.trim comment.toList)
  let tag := String.ofList (body.takeWhile isTagChar)
  if tag ≠ "" ∧ tags.any (Text.sameWord · tag) then
    some (tag, String.ofList (stripMarker (Text.trim (body.dropWhile isTagChar))))
  else
    none

/-- A task note on one line. -/
def render (n : TaskNote) : String :=
  let subject := match n.subject with
    | some s => " (" ++ s ++ ")"
    | none => ""
  n.file ++ ":" ++ toString n.line ++ ": " ++ n.tag ++ ": " ++ n.text ++ subject

end TaskNote

end AcsOutline
