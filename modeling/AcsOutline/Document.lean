import AcsOutline.Session.Completion

/-!
# Documents

A `Document` is what one source, or one file, gives with all that it includes.
-/

namespace AcsOutline

/-- What one run over a source or a file gives. -/
structure Document where
  /-- What is declared. -/
  tree : Tree
  warnings : Array Warning
  /-- The keys of the files read, in order. -/
  files : Array String
deriving Inhabited

namespace Document

/-- The document of a session that ended, or the failure that ended it. -/
def ofResult : Option Failure × Session → Except Failure Document
  | (some failure, _) => .error failure
  | (none, s) => .ok ⟨s.tree, s.warnings, s.visited⟩

/-- Reads a source with all that it includes. -/
def ofSource (options : ReadOptions) (isCancelled : Bool) (files : SourceFiles)
    (name source : String) : Except Failure Document :=
  let s := Session.start options
  ofResult ((if isCancelled then s.cancel else s).readSource files name source)

/-- Reads a file with all that it includes. -/
def ofFile (options : ReadOptions) (files : SourceFiles) (path : String) :
    Except Failure Document :=
  ofResult ((Session.start options).readFile files path)

end Document

end AcsOutline
