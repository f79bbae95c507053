import AcsOutline.Toml.Number

/-!
# TOML values

A TOML document is a table of values.  Numbers, booleans and points in time keep their spelling,
since no setting is one.
-/

namespace AcsOutline.Toml

/-- A value of a document. -/
inductive TomlValue where
  | text (s : String)
  /-- A number or a boolean, as written. -/
  | scalar (spelling : String)
  /-- A date, a time of day or both, as written. -/
  | moment (spelling : String)
  | list (items : List TomlValue)
  /-- Keys with their values, in the order in which they were written. -/
  | table (entries : List (String × TomlValue))
deriving Inhabited

namespace TomlValue

mutual

/-- Whether every number in a value is within the bounds of its kind. -/
def isBounded : TomlValue → Bool
  | text _ => true
  | scalar spelling => Number.isBounded spelling.toList
  | moment _ => true
  | list items => areBounded items
  | table entries => haveBounded entries

/-- Whether every number in values is within the bounds of its kind. -/
def areBounded : List TomlValue → Bool
  | [] => true
  | v :: vs => v.isBounded && areBounded vs

/-- Whether every number in the entries of a table is within the bounds of its kind. -/
def haveBounded : List (String × TomlValue) → Bool
  | [] => true
  | (_, v) :: rest => v.isBounded && haveBounded rest

end

end TomlValue

end AcsOutline.Toml
