import AcsOutline.Tree

/-!
# Printed trees

`Tree.text` writes a tree as a source: each declaration on a line of its own, then the namespaces
of the level, each between a line with its head and one with its closing brace.

A declaration is first written as a list of words (`Declaration.words`), which are the texts of
its tokens, except that the initialiser of an array is one word as it stands.  `Printing.line`
puts words on a line, with the spaces that sources usually have.
-/

namespace AcsOutline

namespace Printing

/-! ## Lines -/

/-- Words that no space follows. -/
def tightAfter : List String :=
  ["(", "[", "#", ":"]

/-- Words that no space precedes. -/
def tightBefore : List String :=
  [")", "]", "[", ",", ";", ":"]

/-- What stands between a word and the word after it, if there is one. -/
def gap (w : String) : Option String → String
  | none => ""
  | some k => if w ∈ tightAfter ∨ k ∈ tightBefore then "" else " "

/-- Words on a line. -/
def line : List String → String
  | [] => ""
  | w :: ws => w ++ gap w ws.head? ++ line ws

/-! ## Parts of declarations -/

/-- A text in quotes. -/
def quote (s : String) : String :=
  "\"" ++ s ++ "\""

/-- A word that is there or not. -/
def flag (word : String) (b : Bool) : List String :=
  if b then [word] else []

/-- Lists of words with commas between them. -/
def listed (items : List (List String)) : List String :=
  List.intercalate [","] items

/-- A size in brackets, if there is one. -/
def bracketed : Option String → List String
  | none => []
  | some size => ["[", size, "]"]

/-- A value behind an equals sign, if there is one. -/
def valued : Option Value → List String
  | none => []
  | some v => "=" :: v.tokens

/-- A word behind a mark, if there is one. -/
def marked (mark : String) : Option String → List String
  | none => []
  | some word => [mark, word]

end Printing

open Printing

/-! ## Declarations -/

/-- The words of a define after its directive. -/
def DefineDecl.words (d : DefineDecl) : List String :=
  d.key :: d.value.tokens

/-- The words of a variable with a number after the word for its scope. -/
def IndexedVariable.words (v : IndexedVariable) : List String :=
  v.type :: v.index :: ":" :: v.name :: ((if v.isArray then ["[", "]"] else []) ++ [";"])

/-- The words of an enum member. -/
def EnumMember.words (m : EnumMember) : List String :=
  m.name :: valued m.value

/-- The words of an enum. -/
def EnumDecl.words (e : EnumDecl) : List String :=
  flag "private" e.isPrivate ++ "enum" :: (e.name.toList ++ (marked ":" e.underlying ++
    "\x7b" :: (listed (e.members.map EnumMember.words) ++ ["\x7d", ";"])))

/-- The words of a struct member. -/
def StructMember.words (m : StructMember) : List String :=
  m.type :: m.name :: (bracketed m.size ++ [";"])

/-- The words of a struct. -/
def StructDecl.words (s : StructDecl) : List String :=
  flag "private" s.isPrivate ++ "struct" :: (s.name.toList ++
    "\x7b" :: (s.members.flatMap StructMember.words ++
      "\x7d" :: (listed (s.instances.map fun name => [name]) ++ [";"])))

/-- The words of a type definition after `typedef`. -/
def Typedef.words : Typedef → List String
  | forType type name size => type :: name :: (bracketed size ++ [";"])
  | forFunction returnType name types =>
    returnType :: name :: "(" :: (listed (types.map fun type => [type]) ++ [")", ";"])

/-- The words of one variable. -/
def Variable.words : Variable → List String
  | scalar name value => name :: valued value
  | array name size initializer =>
    name :: "[" :: (size.toList ++ "]" :: marked "=" initializer)
  | record name values =>
    name :: "=" :: "\x7b" :: (listed (values.map fun value => [value]) ++ ["\x7d"])

/-- The words of variables of one type. -/
def VariablesDecl.words (v : VariablesDecl) : List String :=
  flag "private" v.isPrivate ++ v.type :: (listed (v.items.map Variable.words) ++ [";"])

/-- The words of a parameter of a script. -/
def ScriptParameter.words (p : ScriptParameter) : List String :=
  p.type :: p.name.toList

/-- The words of a script after `script`, with an empty body. -/
def ScriptDecl.words (s : ScriptDecl) : List String :=
  (if s.isQuoted then quote s.identifier else s.identifier) ::
    "(" :: (listed (s.parameters.map ScriptParameter.words) ++
      ")" :: (s.activator.toList ++ (flag "net" s.isNet ++
        (flag "clientside" s.isClientside ++ ["\x7b", "\x7d"]))))

/-- The words of a parameter of a function. -/
def Parameter.words (p : Parameter) : List String :=
  p.type :: p.name :: marked "=" p.default

/-- The words of a function, without a body. -/
def FunctionDecl.words (f : FunctionDecl) : List String :=
  flag "private" f.isPrivate ++ "function" :: f.returnType :: f.name ::
    "(" :: (listed (f.parameters.map Parameter.words) ++
      ")" :: (flag "clientside" f.isClientside ++ [";"]))

/-- The words of a declaration. -/
def Declaration.words : Declaration → List String
  | library name => ["#", "library", quote name]
  | importFile path => ["#", "import", quote path]
  | includeFile path => ["#", "include", quote path]
  | define d => "#" :: "define" :: d.words
  | libDefine d => "#" :: "libdefine" :: d.words
  | worldVariable v => "world" :: v.words
  | globalVariable v => "global" :: v.words
  | enum e => e.words
  | struct s => s.words
  | typedef t => "typedef" :: t.words
  | variableGroup v => v.words
  | script s => "script" :: s.words
  | function f => f.words

/-! ## Trees -/

/-- The words that open a namespace. -/
def NamespaceKey.words (k : NamespaceKey) : List String :=
  flag "strict" k.isStrict ++ "namespace" :: (k.name.toList ++ ["\x7b"])

namespace Tree

mutual

/-- The lines of a tree, as lists of words: its declarations and then its namespaces. -/
def lines : Tree → List (List String)
  | ⟨_, entries, children⟩ =>
    entries.toList.map (fun e => e.declaration.words) ++ linesIn children

/-- The lines of a list of namespaces. -/
def linesIn : List (NamespaceKey × Tree) → List (List String)
  | [] => []
  | (key, t) :: rest => key.words :: (t.lines ++ ["\x7d"] :: linesIn rest)

end

/-- A tree as a source. -/
def text (t : Tree) : String :=
  String.join (t.lines.map fun words => line words ++ "\n")

end Tree

end AcsOutline
