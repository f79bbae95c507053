import AcsOutline.Settings
import AcsOutline.Tree
import AcsOutline.Value.Casts

/-!
# Lowering

`Tree.lower` turns a tree into one that the plain dialect can express.  On every level

* hidden and private declarations, includes, structs and type definitions are left out;
* variables that are initialised like structs are left out, and with them declarations of
  variables of which none is left;
* types are coerced to those of the dialect;
* an enum becomes one define for each member, the documentation going to the first;
* casts are left out of the values of defines, enums and variables.

The namespaces and notes stay as they are.
-/

namespace AcsOutline

namespace Variable

/-- A variable of the plain dialect, if it can be expressed there. -/
def lower? (d : Dialect) : Variable → Option Variable
  | scalar name value => some (scalar name (value.map (Value.stripCasts d)))
  | array name size initializer => some (array name size initializer)
  | record _ _ => none

end Variable

namespace VariablesDecl

/-- The variables of the plain dialect, if any is left. -/
def lower? (d : Dialect) (v : VariablesDecl) : Option VariablesDecl :=
  let items := v.items.filterMap (Variable.lower? d)
  if items.isEmpty then none else some { v with type := d.coerce v.type, items }

end VariablesDecl

/-- A define of the plain dialect. -/
def DefineDecl.lower (d : Dialect) (x : DefineDecl) : DefineDecl :=
  { x with value := x.value.stripCasts d }

/-- The define that an enum member becomes; its value is empty where none is given. -/
def EnumMember.toDefine (d : Dialect) (m : EnumMember) : DefineDecl :=
  ⟨m.name, (m.value.map (Value.stripCasts d)).getD .empty⟩

/-- A script of the plain dialect. -/
def ScriptDecl.lower (d : Dialect) (s : ScriptDecl) : ScriptDecl :=
  { s with parameters := s.parameters.map fun p => { p with type := d.coerce p.type } }

/-- A function of the plain dialect. -/
def FunctionDecl.lower (d : Dialect) (f : FunctionDecl) : FunctionDecl :=
  { f with
    returnType := d.coerce f.returnType
    parameters := f.parameters.map fun p => { p with type := d.coerce p.type } }

/-- The declarations of the plain dialect that a declaration becomes, its privacy aside. -/
def Declaration.lower (d : Dialect) : Declaration → List Declaration
  | includeFile _ | struct _ | typedef _ => []
  | define x => [define (x.lower d)]
  | libDefine x => [libDefine (x.lower d)]
  | enum e => e.members.map fun m => define (m.toDefine d)
  | variableGroup v => (v.lower? d).toList.map variableGroup
  | script s => [script (s.lower d)]
  | function f => [function (f.lower d)]
  | library name => [library name]
  | importFile path => [importFile path]
  | worldVariable v => [worldVariable v]
  | globalVariable v => [globalVariable v]

namespace Entry

/-- Declarations on one line, of which the first has the documentation. -/
def documentFirst (line : Nat) (doc : Option Doc) : List Declaration → List Entry
  | [] => []
  | x :: xs => ⟨x, line, doc⟩ :: xs.map fun y => ⟨y, line, none⟩

/-- The declarations of the plain dialect that a declaration becomes. -/
def lower (d : Dialect) (e : Entry) : List Entry :=
  if e.isHidden || e.declaration.isPrivate then []
  else documentFirst e.line e.doc (e.declaration.lower d)

end Entry

namespace Tree

mutual

/-- The tree that the plain dialect can express. -/
def lower (d : Dialect) : Tree → Tree
  | ⟨notes, entries, children⟩ =>
    ⟨notes, (entries.toList.flatMap (Entry.lower d)).toArray, lowerAll d children⟩

/-- Namespaces that the plain dialect can express. -/
def lowerAll (d : Dialect) : List (NamespaceKey × Tree) → List (NamespaceKey × Tree)
  | [] => []
  | (key, t) :: rest => (key, t.lower d) :: lowerAll d rest

end

end Tree

end AcsOutline
