import AcsOutline.Text.Casing

/-!
# Paths

Paths are written with slashes between their names.  A `Location` is a path without `.` and
`..`: whether it starts at the root, and its names.  `Path.normalize` reads a written path as a
location without looking at any file.  Two files are the same when the `key`s of their
locations agree, which takes backslashes for slashes and ignores case.
-/

namespace AcsOutline

/-- A path without `.` and `..`. -/
structure Location where
  /-- Whether the path starts at the root. -/
  isAbsolute : Bool
  /-- The names on the way, from the outside in. -/
  names : List String
deriving DecidableEq, Inhabited

namespace Location

/-- A location as it is written. -/
def text (l : Location) : String :=
  (if l.isAbsolute then "/" else "") ++ "/".intercalate l.names

/-- The last name of a location. -/
def fileName? (l : Location) : Option String :=
  l.names.getLast?

/-- What two locations of the same file have in common. -/
def key (l : Location) : String :=
  Text.lowercase (l.text.map fun c => if c = '\\' then '/' else c)

end Location

namespace Path

/-- The parts that a path is made of. -/
inductive Part where
  /-- The slash at the start of an absolute path. -/
  | root
  /-- The point at the start of a relative path. -/
  | here
  /-- `..`, which leads one level up. -/
  | up
  /-- A name, which leads one level down. -/
  | name (text : String)
deriving DecidableEq, Inhabited

/-- Whether a segment leads nowhere: it is empty or a point. -/
def isIdle (segment : List Char) : Bool :=
  segment.isEmpty || segment == ['.']

/-- The part that a segment stands for, if it leads anywhere. -/
def partOf? (segment : List Char) : Option Part :=
  if isIdle segment then none
  else if segment = ['.', '.'] then some .up
  else some (.name (String.ofList segment))

/-- A path cut into what it starts with, which is a slash, a point or nothing, and the
segments after that. -/
def cut (path : String) : List Char × List (List Char) :=
  match path.toList with
  | '/' :: rest => (['/'], rest.splitOn '/')
  | ['.'] => (['.'], [])
  | '.' :: '/' :: rest => (['.'], ('/' :: rest).splitOn '/')
  | cs => ([], cs.splitOn '/')

/-- The parts of a path, from the outside in. -/
def parts (path : String) : List Part :=
  let (start, body) := cut path
  let first := match start with
    | ['/'] => [Part.root]
    | ['.'] => [Part.here]
    | _ => []
  first ++ body.filterMap partOf?

/-- The location that a part leads to. -/
def follow (l : Location) : Part → Location
  | .root => ⟨true, []⟩
  | .here => l
  | .up => { l with names := l.names.dropLast }
  | .name text => { l with names := l.names ++ [text] }

/-- The location of a path: `.` leads nowhere, and `..` takes away the name before it, where
there is one. -/
def normalize (path : String) : Location :=
  (parts path).foldl follow ⟨false, []⟩

/-- A path that is taken from a directory, unless it is absolute. -/
def join (directory path : String) : String :=
  if path.toList.head? = some '/' then path
  else if directory = "" ∨ directory.toList.getLast? = some '/' then directory ++ path
  else directory ++ "/" ++ path

/-- Segments without those at the end that lead nowhere. -/
def dropIdleEnd (segments : List (List Char)) : List (List Char) :=
  (segments.reverse.dropWhile isIdle).reverse

/-- The path without its last part.  The root and the empty path have no last part to lose. -/
def parent? (path : String) : Option String :=
  let (start, body) := cut path
  match body.reverse.dropWhile isIdle with
  | [] => if start = ['.'] then some "" else none
  | _ :: before =>
    some (String.ofList (start ++ ['/'].intercalate (dropIdleEnd before.reverse)))

end Path

end AcsOutline
