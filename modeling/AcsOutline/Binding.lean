import AcsOutline.Tree

/-!
# Function bindings

A `Binding` is a function with the namespaces around it.  `Tree.bindings` lists those of a
tree, level by level in the order in which the declarations are shown.
-/

namespace AcsOutline

/-- A function and where it is declared. -/
structure Binding where
  /-- The keys of the namespaces around the function, from the outside in. -/
  path : List NamespaceKey
  function : FunctionDecl
  line : Nat
  /-- The documentation of the function, if there is any. -/
  doc : Option Doc
deriving DecidableEq, Inhabited

namespace Binding

/-- The name of the function after the names of the namespaces around it, with points
between them. -/
def qualifiedName (b : Binding) : String :=
  ".".intercalate (b.path.filterMap (·.name) ++ [b.function.name])

/-- The binding of a declaration below `path`, if it declares a function. -/
def ofDeclared? (path : List NamespaceKey) (e : Entry) : Option Binding :=
  match e.declaration with
  | .function f => some ⟨path, f, e.line, e.doc⟩
  | _ => none

end Binding

namespace Tree

mutual

/-- The functions of a tree that stands below `path`. -/
def bindingsBelow (path : List NamespaceKey) : Tree → List Binding
  | ⟨_, entries, children⟩ =>
    entries.toList.filterMap (Binding.ofDeclared? path) ++ bindingsBelowAll path children

/-- The functions of namespaces that stand below `path`. -/
def bindingsBelowAll (path : List NamespaceKey) : List (NamespaceKey × Tree) → List Binding
  | [] => []
  | (key, t) :: rest => t.bindingsBelow (path ++ [key]) ++ bindingsBelowAll path rest

end

/-- The functions of a tree. -/
def bindings (t : Tree) : List Binding :=
  t.bindingsBelow []

end Tree

end AcsOutline
