import AcsOutline.Path

/-!
# Source files

Where the texts of included files come from.  A `SourceFiles` says which location a written
path stands for and what is found there.  Only finitely many files can be read: `known` lists
their keys, and reading a file that is not listed fails.  `SourceFiles.ofList` holds files in
memory.
-/

namespace AcsOutline

/-- Why a file cannot be read. -/
inductive LoadFault where
  /-- There is no such file. -/
  | missing
  /-- The file is there but cannot be read. -/
  | unreadable (reason : String)
deriving DecidableEq, Inhabited

/-- What is found at a location. -/
structure Finding where
  /-- The text of the file, or why there is none. -/
  content : Except LoadFault String
  /-- Whether the run is cancelled while the file is read. -/
  cancels : Bool
deriving Inhabited

namespace Finding

/-- Nothing is there. -/
def missing : Finding :=
  ⟨.error .missing, false⟩

/-- A file with a text. -/
def ofText (text : String) : Finding :=
  ⟨.ok text, false⟩

/-- Whether a text is found. -/
def isText (f : Finding) : Bool :=
  f.content.toBool

end Finding

/-- Where texts come from. -/
structure SourceFiles where
  /-- The location that a written path stands for. -/
  resolve : String → Location
  /-- What is found at a location. -/
  load : Location → Finding
  /-- The keys of the files that can be read. -/
  known : List String
  /-- No other file can be read. -/
  key_mem_known : ∀ l, (load l).isText = true → l.key ∈ known

namespace SourceFiles

/-- What a list of files has at a location; of several files there the last one counts. -/
def lookup (files : List (Location × Finding)) (l : Location) : Finding :=
  (files.reverse.lookup l).getD .missing

theorem key_mem_of_lookup {files : List (Location × Finding)} {l : Location}
    (h : (lookup files l).isText = true) : l.key ∈ files.map (·.1.key) := by
  unfold lookup at h
  cases hf : files.reverse.lookup l with
  | none => rw [hf] at h; cases h
  | some found =>
    obtain ⟨before, after, hp, -⟩ := List.lookup_eq_some_iff.1 hf
    have hmem : (l, found) ∈ files := by
      rw [← List.mem_reverse, hp]
      simp
    exact List.mem_map.2 ⟨_, hmem, rfl⟩

/-- Files in memory, each under the location of its path. -/
def ofList (files : List (String × Finding)) : SourceFiles where
  resolve := Path.normalize
  load := lookup (files.map fun (path, found) => (Path.normalize path, found))
  known := (files.map fun (path, found) => (Path.normalize path, found)).map (·.1.key)
  key_mem_known _ h := key_mem_of_lookup h

end SourceFiles

end AcsOutline
