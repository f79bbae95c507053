import AcsOutline.Toml.Syntax
import AcsOutline.Toml.Value

/-!
# TOML documents

The tables that the statements of a document make up.  No key is set twice.  A table comes
into being by its header, by a key with points, or on the way to a table inside it.  Only one
of the last sort may still be given a header.  A key with points leads through no table that
has a header, and the tables on its way count from then on as made by such a key.  An inline
table is complete as it stands.
-/

namespace AcsOutline.Toml

/-- How a table came into being. -/
inductive TableOrigin where
  /-- By its header. -/
  | header
  /-- On the way to a table inside it. -/
  | passed
  /-- By a key with points. -/
  | dotted
deriving DecidableEq, Inhabited

/-- What a key holds while a document is read. -/
inductive Node where
  /-- A value that is complete. -/
  | leaf (value : TomlValue)
  /-- A table that may be added to. -/
  | table (origin : TableOrigin) (entries : List (String × Node))
  /-- The tables of an array of tables. -/
  | elements (tables : List (List (String × Node)))
deriving Inhabited

/-- The keys of a table with what they hold. -/
abbrev Entries := List (String × Node)

namespace Entries

/-- Entries in which a key holds something else; a new key comes last. -/
def put (key : String) (node : Node) : Entries → Entries
  | [] => [(key, node)]
  | (k, n) :: rest => if k = key then (k, node) :: rest else (k, n) :: put key node rest

/-- Entries in which the last of the tables is changed. -/
def changeLast (f : Entries → Option Entries) : List Entries → Option (List Entries)
  | [] => none
  | [t] => (f t).map ([·])
  | t :: ts => (changeLast f ts).map (t :: ·)

/-- Changes the table that a header leads to. -/
def change (f : Entries → Option Entries) : List String → Entries → Option Entries
  | [], es => f es
  | key :: path, es =>
    match es.lookup key with
    | some (.table origin inner) =>
      (change f path inner).map fun inner => put key (.table origin inner) es
    | some (.elements ts) =>
      (changeLast (change f path) ts).map fun ts => put key (.elements ts) es
    | _ => none

/-- Gives a key with points a value. -/
def assign (value : TomlValue) : List String → Entries → Option Entries
  | [], _ => none
  | [key], es =>
    match es.lookup key with
    | some _ => none
    | none => some (put key (.leaf value) es)
  | key :: path, es =>
    match es.lookup key with
    | none => (assign value path []).map fun inner => put key (.table .dotted inner) es
    | some (.table .header _) => none
    | some (.table _ inner) =>
      (assign value path inner).map fun inner => put key (.table .dotted inner) es
    | some (.elements ts) =>
      if path.length = 1 then none
      else (changeLast (assign value path) ts).map fun ts => put key (.elements ts) es
    | some (.leaf _) => none

/-- Opens the table of a header. -/
def openTable : List String → Entries → Option Entries
  | [], _ => none
  | [key], es =>
    match es.lookup key with
    | none => some (put key (.table .header []) es)
    | some (.table .passed inner) => some (put key (.table .header inner) es)
    | _ => none
  | key :: path, es =>
    match es.lookup key with
    | none => (openTable path []).map fun inner => put key (.table .passed inner) es
    | some (.table origin inner) =>
      (openTable path inner).map fun inner => put key (.table origin inner) es
    | some (.elements ts) =>
      (changeLast (openTable path) ts).map fun ts => put key (.elements ts) es
    | some (.leaf _) => none

/-- Adds an element to the array of tables of a header. -/
def addElement : List String → Entries → Option Entries
  | [], _ => none
  | [key], es =>
    match es.lookup key with
    | none => some (put key (.elements [[]]) es)
    | some (.elements ts) => some (put key (.elements (ts ++ [[]])) es)
    | _ => none
  | key :: path, es =>
    match es.lookup key with
    | none => (addElement path []).map fun inner => put key (.table .passed inner) es
    | some (.table origin inner) =>
      (addElement path inner).map fun inner => put key (.table origin inner) es
    | some (.elements ts) =>
      (changeLast (addElement path) ts).map fun ts => put key (.elements ts) es
    | some (.leaf _) => none

end Entries

namespace Node

mutual

/-- What a key holds, as a value. -/
def value : Node → TomlValue
  | leaf v => v
  | table _ es => .table (values es)
  | elements ts => .list (tableValues ts)

/-- What keys hold, as values. -/
def values : List (String × Node) → List (String × TomlValue)
  | [] => []
  | (key, n) :: rest => (key, n.value) :: values rest

/-- Tables as values. -/
def tableValues : List (List (String × Node)) → List TomlValue
  | [] => []
  | t :: ts => .table (values t) :: tableValues ts

end

end Node

namespace Literal

mutual

/-- The value that is written. -/
def value? : Literal → Option TomlValue
  | text s => some (.text s)
  | scalar s => some (.scalar s)
  | moment s => some (.moment s)
  | list items => (values? items).map .list
  | inlineTable entries => (fieldsInto? [] entries).map fun es => .table (Node.values es)

/-- The values that are written. -/
def values? : List Literal → Option (List TomlValue)
  | [] => some []
  | l :: ls => do
    let v ← l.value?
    let vs ← values? ls
    return v :: vs

/-- The entries of an inline table after the entries before them. -/
def fieldsInto? (es : Entries) : List (List String × Literal) → Option Entries
  | [] => some es
  | (key, l) :: rest => do
    let v ← l.value?
    let es ← es.assign v key
    fieldsInto? es rest

end

end Literal

/-- A document as far as it is read: its tables and the header that is in force. -/
structure Progress where
  entries : Entries
  /-- The header that keys belong to. -/
  header : List String

namespace Progress

/-- Reads one statement. -/
def read? (p : Progress) : Statement → Option Progress
  | .assign key l => do
    let v ← l.value?
    let es ← p.entries.change (Entries.assign v key) p.header
    return { p with entries := es }
  | .header key => (p.entries.openTable key).map (⟨·, key⟩)
  | .element key => (p.entries.addElement key).map (⟨·, key⟩)

end Progress

/-- The table that a document describes, if it is well formed. -/
def TomlValue.ofText? (text : String) : Option TomlValue := do
  let statements ← Statement.ofText? text
  let p ← statements.foldlM Progress.read? ⟨[], []⟩
  return .table (Node.values p.entries)

end AcsOutline.Toml
