import AcsOutline.Span

/-!
# Diagnostics

A `Diagnostic` is one finding about a source: a message with a severity, perhaps a code, the
ranges that it points at and perhaps an advice.  Codes group the findings: `E0` for the end of
input, `E1` for declarations, `E2` for included files and `E3` for the control of a run.
-/

namespace AcsOutline

/-- The groups of findings, each with a code of its own. -/
inductive ErrorCode where
  | unexpectedEnd
  | unexpectedToken
  | duplicateModifier
  | unknownSymbol
  | unterminated
  | unbalancedClose
  | unknownTag
  | fileNotFound
  | fileRepeated
  | fileUnreadable
  | cancelled
deriving DecidableEq, Inhabited

namespace ErrorCode

/-- The code as it is shown. -/
def text : ErrorCode → String
  | unexpectedEnd => "E001"
  | unexpectedToken => "E100"
  | duplicateModifier => "E101"
  | unknownSymbol => "E102"
  | unterminated => "E103"
  | unbalancedClose => "E104"
  | unknownTag => "E105"
  | fileNotFound => "E200"
  | fileRepeated => "E201"
  | fileUnreadable => "E202"
  | cancelled => "E300"

/-- What a code stands for. -/
def description : ErrorCode → String
  | unexpectedEnd => "unexpected end of input"
  | unexpectedToken => "unexpected token"
  | duplicateModifier => "duplicate modifier"
  | unknownSymbol => "unknown symbol"
  | unterminated => "unterminated body"
  | unbalancedClose => "unbalanced namespace close"
  | unknownTag => "unknown documentation tag"
  | fileNotFound => "included file not found"
  | fileRepeated => "file included more than once"
  | fileUnreadable => "file could not be read"
  | cancelled => "parse cancelled"

/-- Every code, in the order of its text. -/
def all : List ErrorCode :=
  [unexpectedEnd, unexpectedToken, duplicateModifier, unknownSymbol, unterminated,
    unbalancedClose, unknownTag, fileNotFound, fileRepeated, fileUnreadable, cancelled]

/-- The code with a given text. -/
def ofText? (s : String) : Option ErrorCode :=
  all.find? fun c => c.text == s

end ErrorCode

/-- How serious a finding is. -/
inductive Severity where
  | error
  | warning
deriving DecidableEq, Inhabited

namespace Severity

/-- The word for a severity. -/
def text : Severity → String
  | error => "error"
  | warning => "warning"

end Severity

/-- A range of the source with what there is to say about it. -/
structure Label where
  span : Span
  message : String
  /-- Whether the range is the cause of the finding, and not only related to it. -/
  isPrimary : Bool
deriving DecidableEq, Inhabited

namespace Label

/-- A label at the cause of a finding. -/
def primary (span : Span) (message : String) : Label :=
  ⟨span, message, true⟩

/-- A label at a place related to the cause. -/
def secondary (span : Span) (message : String) : Label :=
  ⟨span, message, false⟩

end Label

/-- A finding about a source. -/
structure Diagnostic where
  /-- How serious the finding is. -/
  severity : Severity
  /-- The group that the finding belongs to, if any. -/
  code : Option ErrorCode
  /-- What was found. -/
  message : String
  /-- The ranges concerned, in the order in which they are shown. -/
  labels : List Label
  /-- What to do about it, if there is an advice. -/
  help : Option String
deriving DecidableEq, Inhabited

namespace Diagnostic

/-- A finding with one more label after the others. -/
def addLabel (d : Diagnostic) (label : Label) : Diagnostic :=
  { d with labels := d.labels ++ [label] }

/-- The line that shows a finding: `error[E100]: message`, without the brackets where there is
no code. -/
def render (d : Diagnostic) : String :=
  let code := match d.code with
    | some c => "[" ++ c.text ++ "]"
    | none => ""
  d.severity.text ++ code ++ ": " ++ d.message

end Diagnostic

end AcsOutline
