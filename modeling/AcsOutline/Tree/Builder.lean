import AcsOutline.Tree

/-!
# Building a tree

A `Builder` is a tree under construction with one level open.  It holds that level and the
levels around it, each with the key of the namespace that is open in it.  A namespace takes its
place in the level around it when it is left, and `finish` leaves every open one.
-/

namespace AcsOutline

/-- A tree under construction. -/
structure Builder where
  /-- The open level, as far as it is built. -/
  here : Tree
  /-- The levels around it, the nearest first, each with the key of what is open in it. -/
  above : List (NamespaceKey × Tree)
deriving Inhabited

namespace Builder

/-- An empty tree with its outermost level open. -/
def empty : Builder :=
  ⟨.empty, []⟩

/-- The number of open namespaces. -/
def depth (b : Builder) : Nat :=
  b.above.length

/-- The keys of the open namespaces, from the outside in. -/
def path (b : Builder) : List NamespaceKey :=
  (b.above.map (·.1)).reverse

/-- Opens a namespace of the open level: the one with this key, or a new one. -/
def enter (b : Builder) (key : NamespaceKey) : Builder :=
  ⟨(b.here.child? key).getD .empty, (key, b.here) :: b.above⟩

/-- Leaves the innermost open namespace; there is nothing to leave at the outermost level. -/
def leave? (b : Builder) : Option Builder :=
  match b.above with
  | [] => none
  | (key, around) :: above => some ⟨around.insertChild key b.here, above⟩

/-- Adds a declaration to the open level. -/
def pushEntry (b : Builder) (e : Entry) : Builder :=
  { b with here := b.here.pushEntry e }

/-- Adds a task note to the open level. -/
def pushNote (b : Builder) (n : TaskNote) : Builder :=
  { b with here := b.here.pushNote n }

/-- The tree in which `here` is open, after leaving every namespace. -/
def closeAll (here : Tree) : List (NamespaceKey × Tree) → Tree
  | [] => here
  | (key, around) :: above => closeAll (around.insertChild key here) above

/-- The whole tree, after leaving every namespace that is still open. -/
def finish (b : Builder) : Tree :=
  closeAll b.here b.above

/-- One step in building a tree. -/
inductive Edit where
  | enter (key : NamespaceKey)
  | leave
  | entry (e : Entry)
  | note (n : TaskNote)
deriving Inhabited

/-- Takes one step; there is no result where nothing can be left. -/
def edit? (b : Builder) : Edit → Option Builder
  | .enter key => some (b.enter key)
  | .leave => b.leave?
  | .entry e => some (b.pushEntry e)
  | .note n => some (b.pushNote n)

/-- Takes one step; a step that cannot be taken changes nothing. -/
def edit (b : Builder) (e : Edit) : Builder :=
  (b.edit? e).getD b

/-- Takes a list of steps. -/
def after (b : Builder) (edits : List Edit) : Builder :=
  edits.foldl edit b

end Builder

end AcsOutline
