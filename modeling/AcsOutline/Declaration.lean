import AcsOutline.Doc
import AcsOutline.Value

/-!
# Declarations

What a source declares at its outermost level.  Bodies of functions and scripts are not part
of a declaration.  Names are kept as written; the readers of the grammar put types, activators
and import paths in lower case, library names and define keys in upper case.
-/

namespace AcsOutline

/-- `#define KEY value` or `#libdefine KEY value`. -/
structure DefineDecl where
  key : String
  /-- What it stands for. -/
  value : Value
deriving DecidableEq, Inhabited

/-- `world int 1:name;` or `global int 1:name[];`. -/
structure IndexedVariable where
  type : String
  /-- The number of the variable, as written. -/
  index : String
  name : String
  isArray : Bool
deriving DecidableEq, Inhabited

/-- A member of an enum. -/
structure EnumMember where
  name : String
  /-- The value given to it; nothing where it follows the member before. -/
  value : Option Value
deriving DecidableEq, Inhabited

/-- `enum Name : type { ... }`. -/
structure EnumDecl where
  isPrivate : Bool
  name : Option String
  /-- The type of the members, if it is given. -/
  underlying : Option String
  members : List EnumMember
deriving DecidableEq, Inhabited

/-- A member of a struct. -/
structure StructMember where
  type : String
  name : String
  /-- The size between brackets, if any. -/
  size : Option String
deriving DecidableEq, Inhabited

/-- `struct Name { ... } instance, ...;`. -/
structure StructDecl where
  isPrivate : Bool
  name : Option String
  members : List StructMember
  /-- The names declared after the closing brace. -/
  instances : List String
deriving DecidableEq, Inhabited

/-- A declaration of another name for a type. -/
inductive Typedef where
  /-- `typedef int Name;` or `typedef int Name[4];`. -/
  | forType (type name : String) (size : Option String)
  /-- `typedef void Name(int, str);`. -/
  | forFunction (returnType name : String) (parameters : List String)
deriving DecidableEq, Inhabited

/-- The name that is declared. -/
def Typedef.name : Typedef → String
  | forType _ name _ => name
  | forFunction _ name _ => name

/-- One variable of a declaration. -/
inductive Variable where
  /-- `name` or `name = value`. -/
  | scalar (name : String) (value : Option Value)
  /-- `name[size]`, perhaps with a braced initialiser, which is kept as written. -/
  | array (name : String) (size initializer : Option String)
  /-- `name = { a, b }`, for a variable whose type is a struct. -/
  | record (name : String) (values : List String)
deriving DecidableEq, Inhabited

/-- The name of the variable. -/
def Variable.name : Variable → String
  | scalar name _ => name
  | array name _ _ => name
  | record name _ => name

/-- Variables that share a type, as in `int a = 1, b[4];`. -/
structure VariablesDecl where
  isPrivate : Bool
  type : String
  items : List Variable
deriving DecidableEq, Inhabited

/-- A parameter of a script. -/
structure ScriptParameter where
  type : String
  name : Option String
deriving DecidableEq, Inhabited

/-- `script 1 (int a) ENTER net clientside { ... }`. -/
structure ScriptDecl where
  /-- The number or name of the script; a quoted name without its quotes. -/
  identifier : String
  isQuoted : Bool
  /-- What starts the script, if it is given. -/
  activator : Option String
  /-- Whether the script runs on clients. -/
  isClientside : Bool
  /-- Whether clients may start the script. -/
  isNet : Bool
  parameters : List ScriptParameter
deriving DecidableEq, Inhabited

/-- A parameter of a function. -/
structure Parameter where
  type : String
  name : String
  /-- The default value as written, if there is one. -/
  default : Option String
deriving DecidableEq, Inhabited

/-- `function int name(int a, int b = 1) { ... }`, or a prototype that ends in a semicolon. -/
structure FunctionDecl where
  isPrivate : Bool
  returnType : String
  name : String
  parameters : List Parameter
  /-- Whether the function runs on clients. -/
  isClientside : Bool
deriving DecidableEq, Inhabited

/-- A declaration. -/
inductive Declaration where
  /-- `#library "NAME"`. -/
  | library (name : String)
  /-- `#import "path"`, which is never followed. -/
  | importFile (path : String)
  /-- `#include "path"`. -/
  | includeFile (path : String)
  | define (d : DefineDecl)
  | libDefine (d : DefineDecl)
  | worldVariable (v : IndexedVariable)
  | globalVariable (v : IndexedVariable)
  | enum (e : EnumDecl)
  | struct (s : StructDecl)
  | typedef (t : Typedef)
  | variableGroup (v : VariablesDecl)
  | script (s : ScriptDecl)
  | function (f : FunctionDecl)
deriving DecidableEq, Inhabited

namespace Declaration

/-- Whether a declaration is marked as private. -/
def isPrivate : Declaration → Bool
  | enum e => e.isPrivate
  | struct s => s.isPrivate
  | variableGroup v => v.isPrivate
  | function f => f.isPrivate
  | _ => false

/-- A few words that tell which declaration it is. -/
def label : Declaration → String
  | library name => "library \"" ++ name ++ "\""
  | importFile path => "import \"" ++ path ++ "\""
  | includeFile path => "include \"" ++ path ++ "\""
  | define d => "define " ++ d.key
  | libDefine d => "libdefine " ++ d.key
  | worldVariable v => "world " ++ v.name
  | globalVariable v => "global " ++ v.name
  | enum e => match e.name with
    | some name => "enum " ++ name
    | none => "enum"
  | struct s => match s.name with
    | some name => "struct " ++ name
    | none => "struct"
  | typedef t => "typedef " ++ t.name
  | variableGroup v => v.type ++ " " ++ ", ".intercalate (v.items.map Variable.name)
  | script s =>
    if s.isQuoted then "script \"" ++ s.identifier ++ "\"" else "script " ++ s.identifier
  | function f => "function " ++ f.name

end Declaration

/-- A declaration with the line on which it starts and what is said about it. -/
structure Entry where
  declaration : Declaration
  /-- The line of its first token, counted from one. -/
  line : Nat
  /-- Its documentation, if there is any. -/
  doc : Option Doc
deriving DecidableEq, Inhabited

namespace Entry

/-- Whether the documentation of a declaration asks to leave it out of lowered trees. -/
def isHidden (e : Entry) : Bool :=
  e.doc.any (·.isHidden)

end Entry

end AcsOutline
