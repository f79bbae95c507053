import AcsOutline.Settings
import AcsOutline.Toml.Document

/-!
# Settings in documents

A document of settings has a section `parse` and a section `lower`.  What is missing has its
standard value, and keys without a meaning are passed over if their numbers can be read at all,
but a value of the wrong type makes the whole document useless.  A section may also be written as
the list of its values in order, of which the last ones may be missing.
-/

namespace AcsOutline

open Toml (TomlValue)

/-- What is done about a list that is longer than its section. -/
inductive Excess where
  /-- The values that are too many are passed over, whatever they are. -/
  | ignored
  /-- The section is useless. -/
  | refused
deriving DecidableEq

namespace Settings

/-- The field of a section by its key, or by its place in a list. -/
def field? (v : TomlValue) (key : String) (place : Nat) : Option TomlValue :=
  match v with
  | .table entries => entries.lookup key
  | .list items => items[place]?
  | _ => none

/-- Whether a value can be a section with the given keys.  A point in time counts as a section in
which everything is missing. -/
def isSection (excess : Excess) (keys : List String) : TomlValue → Bool
  | .table entries => entries.all fun (key, v) => keys.contains key || v.isBounded
  | .list items => excess = .ignored || items.length ≤ keys.length
  | .moment _ => true
  | _ => false

/-- A text. -/
def text? : TomlValue → Option String
  | .text s => some s
  | _ => none

/-- A list of texts. -/
def texts? : TomlValue → Option (List String)
  | .list items => items.mapM text?
  | _ => none

/-- A field that has a standard value where it is missing. -/
def decodeField {α : Type} (decode : TomlValue → Option α) (standard : α) :
    Option TomlValue → Option α
  | none => some standard
  | some v => decode v

/-- The choices for reading that a value describes. -/
def readOptions? (excess : Excess) (v : TomlValue) : Option ReadOptions :=
  if isSection excess ["implicit_includes", "task_tags"] v then do
    let implicitIncludes ← decodeField texts? ReadOptions.standard.implicitIncludes
      (field? v "implicit_includes" 0)
    let tags ← decodeField texts? ReadOptions.standard.tags (field? v "task_tags" 1)
    return ⟨implicitIncludes, tags⟩
  else none

/-- The dialect that a value describes. -/
def dialect? (excess : Excess) (v : TomlValue) : Option Dialect :=
  if isSection excess ["allowed_types", "default_type", "cast_types"] v then do
    let allowedTypes ← decodeField texts? Dialect.standard.allowedTypes
      (field? v "allowed_types" 0)
    let defaultType ← decodeField text? Dialect.standard.defaultType (field? v "default_type" 1)
    let castTypes ← decodeField texts? Dialect.standard.castTypes (field? v "cast_types" 2)
    return ⟨allowedTypes, defaultType, castTypes⟩
  else none

/-- The settings that a value describes. -/
def ofValue? (excess : Excess) (v : TomlValue) : Option Settings :=
  if isSection excess ["parse", "lower"] v then do
    let reading ← decodeField (readOptions? excess) .standard (field? v "parse" 0)
    let dialect ← decodeField (dialect? excess) .standard (field? v "lower" 1)
    return ⟨reading, dialect⟩
  else none

/-- The settings that a document describes. -/
def ofText? (text : String) : Option Settings :=
  (TomlValue.ofText? text).bind (ofValue? .ignored)

/-- The settings that a document describes.  Nothing is said about why it describes none. -/
def ofText (text : String) : Except String Settings :=
  match ofText? text with
  | some settings => .ok settings
  | none => .error ""

end Settings

end AcsOutline
