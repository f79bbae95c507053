import AcsOutline.CommandLine.Program

/-!
# The command line

The outermost layer: it reads files, prints, and leaves every decision to
`AcsOutline.CommandLine.run`.
-/

namespace AcsOutline.CommandLine

/-- The text of a file, and whether it is missing where it cannot be read. -/
def readFileText (path : String) : IO (Except (Bool × String) String) := do
  try
    let content ← IO.FS.readBinFile path
    return (Disk.decode content).mapError fun fault => (false, fault.message)
  catch
    | .noFileOrDirectory .. => return .error (true, DiskFault.notFound.message)
    | e => return .error (false, toString e)

/-- What is found at a location. -/
def findFile (l : Location) : IO Finding := do
  match ← readFileText l.text with
  | .ok text => return .ofText text
  | .error (true, _) => return .missing
  | .error (false, reason) => return ⟨.error (.unreadable reason), false⟩

/-- Repeats the rounds of a run until it is finished or fails. -/
partial def completeRun (resolve : String → Location) : Step → IO (Option Failure × Session)
  | .finished session => return (none, session)
  | .failed failure session => return (some failure, session)
  | .reading run => do
    match run.advance resolve with
    | .over step => completeRun resolve step
    | .wanting request run =>
      completeRun resolve (request.answer (← findFile request.location) run)

/-- Reads a source file with all that it includes. -/
def readDocument (here : List String) (options : ReadOptions) (path : String) :
    IO (Except Failure Document) := do
  let session := Session.start options
  match session.request (Disk.resolve here) path none with
  | .error failure => return .error failure
  | .ok request =>
    let step := request.answer (← findFile request.location) ⟨session, []⟩
    return Document.ofResult (← completeRun (Disk.resolve here) step)

/-- The directory of the settings of the system. -/
def findConfigHome : IO (Option String) := do
  match ← IO.getEnv "XDG_CONFIG_HOME" with
  | some home => if home.startsWith "/" then return some home
  | none => pure ()
  return (← IO.getEnv "HOME").map (Path.join · ".config")

/-- The world that the program runs in. -/
def worldHost : IO (Host IO) := do
  let here := (Path.normalize (toString (← IO.currentDir))).names
  return {
    isPresent := fun path => do
      try
        let _ ← IO.FS.Handle.mk path .read
        return true
      catch _ => return false
    readText := fun path => return (← readFileText path).mapError (·.2)
    decodeSettings := Settings.ofText
    readDocument := readDocument here
    write := fun path text => do
      try
        IO.FS.writeFile path text
        return none
      catch e => return some (toString e)
    print := fun text => IO.print text
    configHome := ← findConfigHome }

/-- What is said to a user whose command line is not followed. -/
def Refusal.message : Refusal → String
  | .missingInput => "error: the input file is missing"
  | .unknownWord => "error: unexpected argument"
  | .missingValue => "error: an option lacks its value"
  | .unwantedValue => "error: a flag has a value"
  | .repeatedOption => "error: an option is given twice"
  | .helpWanted =>
    "usage: <input> [--lower] [--tasks] [--bindings] [-o|--output FILE] [-c|--config FILE] " ++
      "[--log-level LEVEL]"
  | .versionWanted => "0.1.0"

end AcsOutline.CommandLine

open AcsOutline CommandLine in
/-- Runs the program. -/
def main (words : List String) : IO UInt32 := do
  match Arguments.ofWords words with
  | .error refusal =>
    IO.eprintln refusal.message
    return if refusal = .helpWanted ∨ refusal = .versionWanted then 0 else 2
  | .ok args =>
    match ← (run (← worldHost) args).run with
    | .ok () => return 0
    | .error trouble =>
      IO.eprintln (Report.ofTrouble trouble).display
      return 1
