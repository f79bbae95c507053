import AcsOutline.Declaration
import AcsOutline.TaskNote

/-!
# Document trees

A `Tree` holds what one namespace level declares, the task notes found there, and the
namespaces inside it.  Two namespaces are the same when their keys are equal, so opening a
namespace again adds to it; `Tree.insertChild` keeps the keys of a level apart.
-/

namespace AcsOutline

/-- What makes two namespaces of a level the same. -/
structure NamespaceKey where
  isStrict : Bool
  /-- The name; nothing for an anonymous namespace. -/
  name : Option String
deriving DecidableEq, Inhabited

/-- How a namespace is shown. -/
def NamespaceKey.render (k : NamespaceKey) : String :=
  (if k.isStrict then "strict " else "") ++ "namespace " ++ k.name.getD "<anonymous>"

/-- One level of a document with everything below it. -/
structure Tree where
  /-- The task notes found at this level, in order. -/
  notes : Array TaskNote
  /-- The declarations of this level, in order. -/
  entries : Array Entry
  /-- The namespaces of this level, in the order in which they were first opened. -/
  children : List (NamespaceKey × Tree)
deriving Inhabited

namespace Tree

/-- The level that holds nothing. -/
def empty : Tree :=
  ⟨#[], #[], []⟩

/-- Adds a declaration after the others of the level. -/
def pushEntry (t : Tree) (e : Entry) : Tree :=
  { t with entries := t.entries.push e }

/-- Adds a task note after the others of the level. -/
def pushNote (t : Tree) (n : TaskNote) : Tree :=
  { t with notes := t.notes.push n }

/-- The namespace of the level with a given key. -/
def child? (t : Tree) (key : NamespaceKey) : Option Tree :=
  t.children.lookup key

/-- Namespaces with one more after the others, or in the place of the one with its key. -/
def insertAmong (key : NamespaceKey) (child : Tree) :
    List (NamespaceKey × Tree) → List (NamespaceKey × Tree)
  | [] => [(key, child)]
  | (k, t) :: rest => if k = key then (k, child) :: rest else (k, t) :: insertAmong key child rest

/-- Adds a namespace to the level, or replaces the one with the same key. -/
def insertChild (t : Tree) (key : NamespaceKey) (child : Tree) : Tree :=
  { t with children := insertAmong key child t.children }

/-- The level that a list of keys leads to, from the outside in. -/
def find? (t : Tree) : List NamespaceKey → Option Tree
  | [] => some t
  | key :: path => (t.child? key).bind (·.find? path)

mutual

/-- The number of declarations on all levels. -/
def total : Tree → Nat
  | ⟨_, entries, children⟩ => entries.size + totalAll children

/-- The number of declarations on all levels of a list of namespaces. -/
def totalAll : List (NamespaceKey × Tree) → Nat
  | [] => 0
  | (_, t) :: rest => t.total + totalAll rest

end

mutual

/-- The task notes of all levels, those of a level before those below it. -/
def allNotes : Tree → List TaskNote
  | ⟨notes, _, children⟩ => notes.toList ++ allNotesIn children

/-- The task notes of all levels of a list of namespaces. -/
def allNotesIn : List (NamespaceKey × Tree) → List TaskNote
  | [] => []
  | (_, t) :: rest => t.allNotes ++ allNotesIn rest

end

end Tree

end AcsOutline
