import AcsOutline.Grammar.Form

/-!
# Failures and warnings

A `Failure` is the finding that ends a run, with the file and line that it belongs to; a
`Warning` does not end it.
-/

namespace AcsOutline

/-- A finding that ends a run. -/
structure Failure where
  diagnostic : Diagnostic
  /-- The file that it belongs to. -/
  file : String
  /-- The line that it belongs to; zero where it concerns the file as a whole. -/
  line : Nat
  /-- The form of declaration that was being read, if any. -/
  form : Option Form
  /-- The text of the file, empty where it was not read. -/
  source : String
deriving DecidableEq, Inhabited

/-- Where a finding belongs: the file, and the line unless that is zero. -/
def placeText (file : String) (line : Nat) : String :=
  if line = 0 then file else file ++ ":" ++ toString line

namespace Failure

/-- A failure on one line. -/
def render (f : Failure) : String :=
  let during := match f.form with
    | some form => " (while parsing " ++ form.title ++ ")"
    | none => ""
  placeText f.file f.line ++ ": " ++ f.diagnostic.render ++ during

end Failure

/-- A finding that does not end a run. -/
structure Warning where
  /-- The file that it belongs to. -/
  file : String
  /-- The line that it belongs to. -/
  line : Nat
  diagnostic : Diagnostic
deriving DecidableEq, Inhabited

namespace Warning

/-- A warning on one line. -/
def render (w : Warning) : String :=
  w.file ++ ":" ++ toString w.line ++ ": " ++ w.diagnostic.render

/-- The warning that of several documentation comments only the last counts. -/
def severalComments (file : String) (line : Nat) (last : Span) : Warning where
  file := file
  line := line
  diagnostic :=
    { severity := .warning
      code := none
      message := "several documentation comments before one declaration"
      labels := [.primary last "only this one is kept"]
      help := none }

end Warning

end AcsOutline
