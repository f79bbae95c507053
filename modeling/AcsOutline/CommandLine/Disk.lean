import AcsOutline.SourceFiles

/-!
# Disks

A `Disk` is a tree of directories and files with one directory that relative paths start from.
Paths are followed name by name: `..` leads to the directory around a directory, and only a
directory can be gone through.  What goes wrong on the way is a `DiskFault`.
-/

namespace AcsOutline.CommandLine

/-- Why a path leads to no file. -/
inductive DiskFault where
  /-- There is nothing. -/
  | notFound
  /-- A file stands where a directory is needed. -/
  | notDirectory
  /-- A directory stands where a file is needed. -/
  | isDirectory
  /-- A name is longer than names can be. -/
  | nameTooLong
  /-- A path with a NUL character. -/
  | nulInPath
  /-- A file that is no text in UTF-8. -/
  | notText
deriving DecidableEq, Inhabited

/-- What a fault says. -/
def DiskFault.message : DiskFault → String
  | notFound => "No such file or directory (os error 2)"
  | notDirectory => "Not a directory (os error 20)"
  | isDirectory => "Is a directory (os error 21)"
  | nameTooLong => "File name too long (os error 36)"
  | nulInPath => "file name contained an unexpected NUL byte"
  | notText => "stream did not contain valid UTF-8"

/-- What stands on a disk. -/
inductive DiskNode where
  | directory
  | file (content : ByteArray)
deriving Inhabited

/-- A tree of directories and files. -/
structure Disk where
  /-- The names on the way to the directory that relative paths start from. -/
  here : List String
  /-- What stands on the disk, by the names on the way to it. -/
  nodes : List (List String × DiskNode)
deriving Inhabited

namespace Disk

/-- What the names lead to; the root is a directory. -/
def node? (d : Disk) (names : List String) : Option DiskNode :=
  if names = [] then some .directory else d.nodes.lookup names

/-- The directory that names lead to has to be there. -/
def checkDirectory (d : Disk) (names : List String) : Except DiskFault Unit :=
  match d.node? names with
  | some .directory => .ok ()
  | some (.file _) => .error .notDirectory
  | none => .error .notFound

/-- The names that one part of a path leads to from a directory. -/
def enter (d : Disk) (names : List String) (part : Path.Part) : Except DiskFault (List String) := do
  d.checkDirectory names
  match part with
  | .root => return []
  | .here => return names
  | .up => return names.dropLast
  | .name text => if 255 < text.utf8ByteSize then throw .nameTooLong else return names ++ [text]

/-- Whether a path has to lead to a directory: it ends in a slash, or in a point after one. -/
def wantsDirectory (path : String) : Bool :=
  match (Path.cut path).2.getLast? with
  | some segment => Path.isIdle segment
  | none => false

/-- The names that a path leads to.  The last of them need not be there. -/
def locate (d : Disk) (path : String) : Except DiskFault (List String) :=
  if path.toList.contains '\x00' then .error .nulInPath
  else if path = "" then .error .notFound
  else (Path.parts path).foldlM d.enter (if path.toList.head? = some '/' then [] else d.here)

/-- What the names lead to, as a file. -/
def readNames (d : Disk) (names : List String) : Except DiskFault ByteArray :=
  match d.node? names with
  | none => .error .notFound
  | some .directory => .error .isDirectory
  | some (.file content) => .ok content

/-- The content of the file at a path. -/
def readBytes (d : Disk) (path : String) : Except DiskFault ByteArray := do
  let names ← d.locate path
  if wantsDirectory path then
    d.checkDirectory names
  d.readNames names

/-- Bytes as a text. -/
def decode (content : ByteArray) : Except DiskFault String :=
  match String.fromUTF8? content with
  | some text => .ok text
  | none => .error .notText

/-- The text of the file at a path. -/
def readText (d : Disk) (path : String) : Except DiskFault String := do
  decode (← d.readBytes path)

/-- Whether a path leads to a file or a directory. -/
def isPresent (d : Disk) (path : String) : Bool :=
  match d.readBytes path with
  | .ok _ => true
  | .error fault => fault == .isDirectory

/-- What stands on a disk after something is put at the place that names lead to. -/
def put (d : Disk) (names : List String) (node : DiskNode) : Disk :=
  { d with nodes := (names, node) :: d.nodes.filter fun (ns, _) => ns ≠ names }

/-- Whether a path ends in a point after a slash, perhaps with slashes behind it: that point is
gone through like a directory. -/
def endsInPoint (path : String) : Bool :=
  ((Path.cut path).2.reverse.takeWhile Path.isIdle).any (!·.isEmpty)

/-- Writes a file.  The directory around it has to be there, and a path that ends in a slash
names no file to write. -/
def write (d : Disk) (path : String) (content : ByteArray) : Except DiskFault Disk := do
  let names ← d.locate path
  if endsInPoint path then
    d.checkDirectory names
  if wantsDirectory path then throw .isDirectory
  match d.node? names with
  | some .directory => throw .isDirectory
  | _ => return d.put names (.file content)

/-- Makes the directories on the way to a place, from the outside in. -/
def makeDirectories (d : Disk) (before : List String) : List String → Disk
  | [] => d
  | name :: rest =>
    let names := before ++ [name]
    let d := if (d.node? names).isSome then d else d.put names .directory
    d.makeDirectories names rest

/-- An empty disk but for the directory that relative paths start from. -/
def ofDirectory (here : List String) : Disk :=
  makeDirectories ⟨here, []⟩ [] here

/-- Puts a directory at a path, with the directories around it. -/
def addDirectory (d : Disk) (path : String) : Disk :=
  d.makeDirectories [] (d.here ++ (Path.normalize path).names)

/-- Puts a file at a path, with the directories around it. -/
def addFile (d : Disk) (path : String) (content : ByteArray) : Disk :=
  let names := d.here ++ (Path.normalize path).names
  (d.makeDirectories [] names.dropLast).put names (.file content)

/-! ## Sources on a disk -/

/-- The location of a path: relative paths start from the directory of the disk.  The empty
path stays as it is. -/
def resolve (here : List String) (path : String) : Location :=
  if path = "" then Path.normalize path
  else Path.normalize (Path.join (Location.text ⟨true, here⟩) path)

/-- The content of the file at a location. -/
def readLocation (d : Disk) (l : Location) : Except DiskFault ByteArray :=
  if l.text.toList.contains '\x00' then .error .nulInPath
  else if !l.isAbsolute then .error .notFound
  else do
    let names ← (l.names.map Path.Part.name).foldlM d.enter []
    if names = l.names then d.readNames names else throw .notFound

/-- What is found at a location. -/
def find (d : Disk) (l : Location) : Finding :=
  match d.readLocation l >>= decode with
  | .ok text => .ofText text
  | .error .notFound => .missing
  | .error fault => ⟨.error (.unreadable fault.message), false⟩

theorem mem_nodes_of_readNames {d : Disk} {names : List String} {content : ByteArray}
    (h : d.readNames names = .ok content) : ∃ node, (names, node) ∈ d.nodes := by
  unfold readNames node? at h
  split at h
  · cases h
  · cases h
  next bytes found =>
    split at found
    · cases found
    · obtain ⟨before, after, hp, -⟩ := List.lookup_eq_some_iff.1 found
      exact ⟨.file bytes, by rw [hp]; simp⟩

theorem mem_nodes_of_readLocation {d : Disk} {l : Location} {content : ByteArray}
    (h : d.readLocation l = .ok content) :
    l.isAbsolute = true ∧ ∃ node, (l.names, node) ∈ d.nodes := by
  unfold readLocation at h
  split at h
  · cases h
  · split at h
    · cases h
    next habs =>
      refine ⟨by simpa using habs, ?_⟩
      cases hf : (l.names.map Path.Part.name).foldlM d.enter [] with
      | error fault => rw [hf] at h; cases h
      | ok names =>
        rw [hf] at h
        change (if names = l.names then d.readNames names else throw .notFound) = _ at h
        split at h
        next hnames => exact hnames ▸ mem_nodes_of_readNames h
        · cases h

/-- The files of a disk as sources. -/
def sources (d : Disk) : SourceFiles where
  resolve := resolve d.here
  load := d.find
  known := d.nodes.map fun (names, _) => Location.key ⟨true, names⟩
  key_mem_known l h := by
    unfold find at h
    split at h
    next text ht =>
      cases hr : d.readLocation l with
      | error fault => rw [hr] at ht; cases ht
      | ok content =>
        obtain ⟨habs, node, hmem⟩ := mem_nodes_of_readLocation hr
        refine List.mem_map.2 ⟨_, hmem, ?_⟩
        cases l
        cases habs
        rfl
    · cases h
    · cases h

end Disk

end AcsOutline.CommandLine
