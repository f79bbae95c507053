import AcsOutline.CommandLine.Arguments
import AcsOutline.CommandLine.Disk
import AcsOutline.Document
import AcsOutline.Lowering
import AcsOutline.Outline
import AcsOutline.Report
import AcsOutline.Settings.Decode

/-!
# The program

What the program does with its arguments: it finds its settings, reads the input with all that
it includes, and shows what is declared there.  Nothing is written before everything else is
done.

The program reaches files through a `Host`, which also says how settings are written.  `World.host`
is one that is a value: a disk and the text that was printed.
-/

namespace AcsOutline.CommandLine

/-- What the program reaches the world through. -/
structure Host (m : Type → Type) where
  /-- Whether a path leads to something. -/
  isPresent : String → m Bool
  /-- The text of a file, or why it cannot be read. -/
  readText : String → m (Except String String)
  /-- The settings that a text describes, or why it describes none. -/
  decodeSettings : String → Except String Settings
  /-- Reads a source file with all that it includes. -/
  readDocument : ReadOptions → String → m (Except Failure Document)
  /-- Writes a file; the answer is why it could not be written, if so. -/
  write : String → String → m (Option String)
  print : String → m Unit
  /-- The directory of the settings of the system, if there is one. -/
  configHome : Option String

/-- The path of settings below a directory of settings. -/
def settingsPath : String := "strife/config.toml"

/-- The text that shows a document as the arguments ask for it.  Task notes and functions are
the same whether or not the tree is lowered. -/
def render (args : Arguments) (dialect : Dialect) (document : Document) : String :=
  let tree := if args.lower then document.tree.lower dialect else document.tree
  tree.outline ++ (if args.tasks then noteSection tree.allNotes else "") ++
    (if args.bindings then bindingSection document.tree.bindings else "")

section

variable {m : Type → Type} [Monad m] (host : Host m)

/-- The settings in the file at a path. -/
def readSettings (path : String) : ExceptT Trouble m Settings := do
  match ← host.readText path with
  | .error reason => throw (.io reason)
  | .ok text =>
    match host.decodeSettings text with
    | .ok settings => return settings
    | .error reason => throw (.config ("Failed to parse TOML configuration: " ++ reason))

/-- The first of the paths that leads to something. -/
def findPresent : List String → ExceptT Trouble m (Option String)
  | [] => return none
  | path :: paths => do
    if ← host.isPresent path then return some path else findPresent paths

/-- The places where settings are looked for when none are named. -/
def settingsPlaces : List String :=
  settingsPath :: (host.configHome.map fun home => Path.join home settingsPath).toList

/-- The settings that are named, or those at the first place that has some, or the standard
ones. -/
def loadSettings (explicit : Option String) : ExceptT Trouble m Settings := do
  match explicit with
  | some path =>
    if ← host.isPresent path then
      readSettings host path
    else
      throw (.config ("Missing configuration file: " ++ path))
  | none =>
    match ← findPresent host (settingsPlaces host) with
    | some path => readSettings host path
    | none => return .standard

/-- Reads and shows what the arguments ask for. -/
def run (args : Arguments) : ExceptT Trouble m Unit := do
  let settings ← loadSettings host args.config
  match ← host.readDocument settings.reading args.input with
  | .error failure => throw (.source failure)
  | .ok document =>
    let text := render args settings.dialect document
    match args.output with
    | none => host.print text
    | some path =>
      match ← host.write path text with
      | some reason => throw (.io reason)
      | none => return ()

end

/-- A disk and what was printed.  On this disk every file may be read and written: it has neither
permissions nor symbolic links, and a write never runs out of room. -/
structure World where
  disk : Disk
  printed : String
deriving Inhabited

namespace World

/-- A world as a host, for any way to write settings. -/
def host (configHome : Option String)
    (decodeSettings : String → Except String Settings := Settings.ofText) :
    Host (StateM World) where
  isPresent path := return (← get).disk.isPresent path
  readText path := return ((← get).disk.readText path).mapError DiskFault.message
  readDocument options path := return Document.ofFile options (← get).disk.sources path
  write path text := do
    match (← get).disk.write path text.toUTF8 with
    | .error fault => return some fault.message
    | .ok disk =>
      modify fun w => { w with disk }
      return none
  print text := modify fun w => { w with printed := w.printed ++ text }
  decodeSettings := decodeSettings
  configHome := configHome

end World

end AcsOutline.CommandLine
