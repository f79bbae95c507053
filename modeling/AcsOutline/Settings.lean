import AcsOutline.Text.Ascii

/-!
# Settings

What a user may choose: which included files are known without being read, which comment tags
are notes, and what the plain dialect that declarations are lowered to allows.
-/

namespace AcsOutline

/-- Choices for reading sources. -/
structure ReadOptions where
  /-- Names of files that may be included without being read. -/
  implicitIncludes : List String
  /-- The tags of the comments that are kept as notes. -/
  tags : List String
deriving DecidableEq

namespace ReadOptions

/-- The choices that hold where nothing else is said. -/
def standard : ReadOptions where
  implicitIncludes := ["zcommon.acs"]
  tags := ["task", "todo", "hack", "undone"]

instance : Inhabited ReadOptions := ⟨standard⟩

/-- The part of a written path after the last slash or backslash. -/
def fileName (path : String) : String :=
  String.ofList (path.toList.reverse.takeWhile fun c => c ≠ '/' ∧ c ≠ '\\').reverse

/-- Whether a written path names a file that is known without being read. -/
def isImplicit (options : ReadOptions) (path : String) : Bool :=
  options.implicitIncludes.any (Text.sameWord · (fileName path))

end ReadOptions

/-- What the plain dialect allows. -/
structure Dialect where
  /-- The types that the dialect has. -/
  allowedTypes : List String
  /-- The type that replaces every other one. -/
  defaultType : String
  /-- The types whose casts the dialect does without. -/
  castTypes : List String
deriving DecidableEq

namespace Dialect

/-- The dialect that holds where nothing else is said. -/
def standard : Dialect where
  allowedTypes := ["str", "int", "fixed", "void", "bool"]
  defaultType := "int"
  castTypes := ["int", "fixed", "str", "bool", "raw"]

instance : Inhabited Dialect := ⟨standard⟩

/-- The type of the dialect for a written type: the first allowed one that is the same word,
as it is spelled there, or the default type. -/
def coerce (d : Dialect) (type : String) : String :=
  (d.allowedTypes.find? (Text.sameWord · type)).getD d.defaultType

/-- Whether a word names a type whose casts are left out. -/
def isCastType (d : Dialect) (name : String) : Bool :=
  d.castTypes.any (Text.sameWord · name)

end Dialect

/-- All choices together. -/
structure Settings where
  reading : ReadOptions
  /-- The dialect to lower to. -/
  dialect : Dialect
deriving DecidableEq

namespace Settings

/-- The choices that hold where nothing else is said. -/
def standard : Settings :=
  ⟨.standard, .standard⟩

instance : Inhabited Settings := ⟨standard⟩

end Settings

end AcsOutline
