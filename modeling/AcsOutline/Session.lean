import AcsOutline.Doc.Comment
import AcsOutline.Failure
import AcsOutline.Settings
import AcsOutline.SourceFiles

/-!
# Reading sessions

A `Session` gathers what one or more sources and the files that they include declare.  It
survives a failure: what was declared before it stays.

A `Run` is a session with the files that are being read, the innermost include first.
`Run.advance` reads one declaration of the innermost file; where that is an include, it asks
for the file, and `Request.answer` goes on with what is found.  `Run.complete` repeats this
until every file is read or one fails.  It ends because each round either reads on, leaves a
file, or enters one of the finitely many files that were not visited before
(`Run.step_decreases`).
-/

namespace AcsOutline

/-- What is gathered from the sources read so far. -/
structure Session where
  options : ReadOptions
  /-- The document tree under construction. -/
  builder : Builder
  /-- The documentation that waits for the next declaration. -/
  pendingDoc : Option Doc
  warnings : Array Warning
  /-- The keys of the files read so far, in order. -/
  visited : Array String
  /-- Whether the session was asked to stop. -/
  isCancelled : Bool
deriving Inhabited

/-- A file that is being read. -/
structure OpenFile where
  /-- How the file is named in findings. -/
  name : String
  source : String
  /-- The directory that included paths are taken from, if there is one. -/
  directory : Option String
  /-- How far the file is read. -/
  scanner : Scanner
deriving Inhabited

/-- The place of an include. -/
structure IncludeSite where
  /-- The file that includes. -/
  file : String
  line : Nat
  span : Span
  /-- The text of the file that includes. -/
  source : String
deriving Inhabited

/-- A file that is to be read. -/
structure Request where
  /-- Where the file is. -/
  location : Location
  /-- The path of the file before it was resolved. -/
  path : String
  /-- The include that asks for it, unless the user does. -/
  site : Option IncludeSite
deriving Inhabited

/-- A session with the files that are being read. -/
structure Run where
  session : Session
  /-- The files, the innermost include first. -/
  files : List OpenFile
deriving Inhabited

/-- Where a run is after a round. -/
inductive Step where
  /-- Every file is read. -/
  | finished (session : Session)
  /-- A failure ended the run. -/
  | failed (failure : Failure) (session : Session)
  /-- There is more to read. -/
  | reading (run : Run)

/-- Where a run is after one declaration: a round is over, or the run waits for a file. -/
inductive Stage where
  | over (step : Step)
  | wanting (request : Request) (run : Run)

/-- The failure of a file that cannot be entered: it belongs to the include that asks for the
file, or else to the file itself. -/
def failureOf (path : String) (site : Option IncludeSite) (fault : Fault) : Failure :=
  match site with
  | some s =>
    { diagnostic := fault.diagnostic.addLabel (.primary s.span "included here")
      file := s.file
      line := s.line
      form := some .includeFile
      source := s.source }
  | none =>
    { diagnostic := fault.diagnostic, file := path, line := 0, form := none, source := "" }

namespace OpenFile

/-- A file at its start. -/
def start (name source : String) (directory : Option String) : OpenFile :=
  ⟨name, source, directory, .ofString source⟩

/-- The failure of a fault in a file. -/
def failure (f : OpenFile) (fault : Fault) (line : Nat) (form : Option Form) : Failure where
  diagnostic := fault.diagnostic
  file := f.name
  line := line
  form := form
  source := f.source

end OpenFile

namespace Session

/-- A session that has read nothing. -/
def start (options : ReadOptions) : Session where
  options := options
  builder := .empty
  pendingDoc := none
  warnings := #[]
  visited := #[]
  isCancelled := false

/-- Asks a session to stop before the next declaration. -/
def cancel (s : Session) : Session :=
  { s with isCancelled := true }

/-- The document tree of what is read so far. -/
def tree (s : Session) : Tree :=
  s.builder.finish

/-- Records that a file is read; a file that was read before is not recorded again. -/
def visit (s : Session) (key : String) : Session :=
  if s.visited.contains key then s else { s with visited := s.visited.push key }

/-- Adds a line comment to the open namespace, if it is a task note. -/
def harvestComment (file : String) (subject : Option String) (s : Session) (t : Trivia) : Session :=
  match t.kind with
  | .lineComment =>
    match TaskNote.ofComment? s.options.tags t.text with
    | some (tag, text) =>
      { s with builder := s.builder.pushNote ⟨tag, text, file, t.line, subject⟩ }
    | none => s
  | _ => s

/-- Adds the task notes among some trivia to the open namespace. -/
def harvest (s : Session) (file : String) (trivia : List Trivia) (subject : Option String) :
    Session :=
  trivia.foldl (harvestComment file subject) s

/-- The documentation comments among some trivia. -/
def docComments (trivia : List Trivia) : List Trivia :=
  trivia.filter fun t => t.kind == .blockComment && Doc.isComment t.text

/-- Takes the last documentation comment among the trivia before a declaration as the
documentation of the next declaration, and warns where there are several. -/
def takeDoc (s : Session) (file : String) (line : Nat) (trivia : List Trivia) :
    Except Fault Unit × Session :=
  let comments := docComments trivia
  match comments.getLast? with
  | none => (.ok (), s)
  | some last =>
    let s :=
      if comments.length > 1 then
        { s with warnings := s.warnings.push (.severalComments file line last.span) }
      else s
    match Doc.ofComment last.text last.span with
    | .ok doc => (.ok (), { s with pendingDoc := some doc })
    | .error fault => (.error fault, s)

/-- Adds a declaration to the open namespace, with the documentation that waits for it. -/
def addDeclaration (s : Session) (d : Declaration) (line : Nat) : Session :=
  { s with builder := s.builder.pushEntry ⟨d, line, s.pendingDoc⟩, pendingDoc := none }

/-- Asks for the file at a path: the session must go on and the file must be new. -/
def request (s : Session) (resolve : String → Location) (path : String)
    (site : Option IncludeSite) : Except Failure Request :=
  if s.isCancelled then
    .error (failureOf path site .cancelled)
  else if s.visited.contains (resolve path).key then
    .error (failureOf path site (.repeatedFile path))
  else
    .ok ⟨resolve path, path, site⟩

end Session

namespace Request

/-- The fault of a file that cannot be read. -/
def faultOf (q : Request) : LoadFault → Fault
  | .missing => .missingFile q.location.text
  | .unreadable reason => .unreadableFile q.location.text reason

/-- The file that is read, at its start. -/
def openFile (q : Request) (text : String) : OpenFile :=
  .start (q.location.fileName?.getD q.path) text (Path.parent? q.location.text)

/-- Goes on with what is found at the location of a file: a text is read before everything
else, and the file counts as visited from here on. -/
def answer (q : Request) (found : Finding) (r : Run) : Step :=
  let session := if found.cancels then r.session.cancel else r.session
  match found.content with
  | .error fault => .failed (failureOf q.path q.site (q.faultOf fault)) session
  | .ok text => .reading ⟨session.visit q.location.key, q.openFile text :: r.files⟩

end Request

namespace Run

/-- The path that an include names, seen from the file that includes. -/
def includeTarget (file : OpenFile) (path : String) : String :=
  let relative := path.map fun c => if c = '\\' then '/' else c
  match file.directory with
  | some directory => Path.join directory relative
  | none => relative

/-- Follows an include, unless its file is known without being read. -/
def follow (resolve : String → Location) (path : String) (site : IncludeSite)
    (session : Session) (file : OpenFile) (outer : List OpenFile) : Stage :=
  if session.options.isImplicit path then
    .over (.reading ⟨session, file :: outer⟩)
  else
    match session.request resolve (includeTarget file path) (some site) with
    | .error failure => .over (.failed failure session)
    | .ok request => .wanting request ⟨session, file :: outer⟩

/-- Goes on after a declaration: `first` is the scanner at its first token and the scanner of
`file` stands at its last one. -/
def declare (resolve : String → Location) (declaration : Option Declaration) (first : Scanner)
    (session : Session) (file : OpenFile) (outer : List OpenFile) : Stage :=
  let inner := file.scanner.triviaSince first.triviaCount
  match declaration with
  | none => .over (.reading ⟨session.harvest file.name inner none, file :: outer⟩)
  | some d =>
    let session :=
      (session.addDeclaration d first.token.line).harvest file.name inner (some d.label)
    match d with
    | .includeFile path =>
      let span := first.token.span.union file.scanner.token.span
      follow resolve path ⟨file.name, first.token.line, span, file.source⟩ session file outer
    | _ => .over (.reading ⟨session, file :: outer⟩)

/-- Reads the declaration that starts at the token of `first`. -/
def readDeclaration (resolve : String → Location) (first : Scanner) (session : Session)
    (file : OpenFile) (outer : List OpenFile) : Stage :=
  match recognize ⟨first, session.builder⟩ with
  | .error rejection desk =>
    .over (.failed
      (file.failure rejection.fault desk.scanner.token.line rejection.form)
      { session with builder := desk.builder })
  | .ok declaration desk =>
    declare resolve declaration first { session with builder := desk.builder }
      { file with scanner := desk.scanner } outer

/-- Reads the next declaration of a file with what stands before it, or leaves the file. -/
def readFile (resolve : String → Location) (session : Session) (file : OpenFile)
    (outer : List OpenFile) : Stage :=
  let first := file.scanner.next
  let leading := first.triviaSince file.scanner.triviaCount
  let session := session.harvest file.name leading none
  if first.token.kind = .eof then
    .over (.reading ⟨session, outer⟩)
  else
    match session.takeDoc file.name first.token.line leading with
    | (.error fault, session) =>
      .over (.failed (file.failure fault first.token.line none) session)
    | (.ok (), session) => readDeclaration resolve first session file outer

/-- Reads one declaration of the innermost file. -/
def advance (resolve : String → Location) (r : Run) : Stage :=
  match r.files with
  | [] => .over (.finished r.session)
  | file :: outer =>
    if r.session.isCancelled then
      .over (.failed (file.failure .cancelled file.scanner.line none) r.session)
    else
      readFile resolve r.session file outer

/-- Reads one declaration of the innermost file, and enters a file that it includes. -/
def step (files : SourceFiles) (r : Run) : Step :=
  match r.advance files.resolve with
  | .over s => s
  | .wanting request r' => request.answer (files.load request.location) r'

end Run

end AcsOutline
