/-!
# Documentation

What a documentation comment says about a declaration.  `Doc.Comment` reads it from a comment.
-/

namespace AcsOutline

/-- What is said about one parameter. -/
structure DocParameter where
  name : String
  /-- What it is for; nothing where only the name was written. -/
  description : Option String
deriving DecidableEq, Inhabited

/-- The documentation of a declaration. -/
structure Doc where
  /-- What the declaration is. -/
  summary : Option String
  /-- The documented parameters, in the order in which they were written. -/
  parameters : List DocParameter
  /-- What is returned. -/
  returns : Option String
  /-- Whether the declaration is left out of lowered trees. -/
  isHidden : Bool
deriving DecidableEq, Inhabited

namespace Doc

/-- Documentation that says nothing. -/
def empty : Doc :=
  ⟨none, [], none, false⟩

/-- Whether documentation says nothing. -/
def isEmpty (d : Doc) : Bool :=
  d.summary.isNone && d.parameters.isEmpty && d.returns.isNone && !d.isHidden

/-- The first documented parameter of a given name. -/
def parameter? (d : Doc) (name : String) : Option DocParameter :=
  d.parameters.find? (·.name == name)

end Doc

end AcsOutline
