import AcsOutline.Failure

/-!
# Trouble and reports

A `Trouble` is whatever can keep a whole run from its end, and a `Report` is what is shown of
it: a headline, and the ranges to point at where there is a source to point into.
-/

namespace AcsOutline

/-- What keeps a run from its end. -/
inductive Trouble where
  /-- A file other than the sources cannot be read or written. -/
  | io (reason : String)
  /-- The settings cannot be used. -/
  | config (reason : String)
  /-- A source cannot be read. -/
  | source (failure : Failure)
deriving DecidableEq, Inhabited

namespace Trouble

/-- Trouble on one line. -/
def render : Trouble → String
  | io reason => "I/O error: " ++ reason
  | config reason => "Configuration error: " ++ reason
  | source failure => failure.render

end Trouble

/-- A range to point at in a report, by its start and its length. -/
structure ReportLabel where
  /-- The offset of the first byte. -/
  offset : Nat
  length : Nat
  message : String
  isPrimary : Bool
deriving DecidableEq, Inhabited

/-- What is shown of trouble. -/
structure Report where
  /-- The headline. -/
  display : String
  /-- The code of the finding, if it has one. -/
  code : Option String
  /-- What to do about it, if there is an advice. -/
  help : Option String
  /-- Whether there is a source to point into. -/
  hasSource : Bool
  /-- The ranges to point at; none at all without a source. -/
  labels : Option (List ReportLabel)
deriving DecidableEq, Inhabited

namespace Report

/-- A label of a finding as a range to point at. -/
def ofLabel (l : Label) : ReportLabel :=
  ⟨l.span.start, l.span.length, l.message, l.isPrimary⟩

/-- What is shown of a failure. -/
def ofFailure (f : Failure) : Report :=
  let labels := f.diagnostic.labels
  { display := placeText f.file f.line ++ ": " ++ f.diagnostic.message
    code := f.diagnostic.code.map ErrorCode.text
    help := f.diagnostic.help
    hasSource := f.source ≠ ""
    labels := if f.source = "" ∨ labels.isEmpty then none else some (labels.map ofLabel) }

/-- What is shown of trouble. -/
def ofTrouble : Trouble → Report
  | .source failure => ofFailure failure
  | .io reason => ⟨(Trouble.io reason).render, some "strife::io", none, false, none⟩
  | .config reason =>
    ⟨(Trouble.config reason).render, some "strife::config",
      some "check the file passed with --config or strife/config.toml", false, none⟩

end Report

end AcsOutline
