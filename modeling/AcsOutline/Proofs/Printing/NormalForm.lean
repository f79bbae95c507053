import AcsOutline.Proofs.Printing.Printer
import AcsOutline.Proofs.Tree.Levels
import AcsOutline.Proofs.Value.Brackets
import AcsOutline.Scanner.Command
import AcsOutline.Text.Casing

/-!
# Normal forms

What the parts of a declaration have to look like so that it can be found again in its printed
form.  Names are words that are no keywords; types and activators are in lower case as well, and
what a directive changes the case of is in that case already.  A value is one that a scanner can
read, and the initialiser of an array is one group in braces, comments and line breaks included.

What a form cannot tell apart is left out: `net` and `clientside` are never the activator of a
script, and a lone `void` is no parameter.
-/

namespace AcsOutline

/-! ## Comments -/

/-- The texts of the line comments among some trivia. -/
def Trivia.lineComments (ts : List Trivia) : List String :=
  (ts.filter (·.kind == .lineComment)).map (·.text)

/-- The texts of the line comments that are skipped so far, in source order. -/
def Scanner.comments (s : Scanner) : List String :=
  Trivia.lineComments s.trivia

namespace Printing

/-! ## Words -/

/-- A word: ASCII letters, digits and underscores, without a digit at the start. -/
structure IsWord (s : String) : Prop where
  nonempty : s ≠ ""
  all : ∀ c ∈ s.toList, Lexeme.isWordChar c = true
  head : ∀ c ∈ s.toList.head?, c.isDigit = false

theorem IsWord.of_check {s : String} (h : s ≠ "" ∧ s.toList.all Lexeme.isWordChar = true ∧
    s.toList.head?.any Char.isDigit = false) : IsWord s where
  nonempty := h.1
  all := List.all_eq_true.1 h.2.1
  head := fun c hc => by simpa [Option.mem_def.1 hc] using h.2.2

/-- A word that is no keyword. -/
structure IsName (s : String) : Prop extends IsWord s where
  plain : Keyword.ofText? s = none

/-- A name in lower case. -/
structure IsType (s : String) : Prop extends IsName s where
  lower : Text.lowercase s = s

/-- A number, perhaps with a sign. -/
def IsNumber (s : String) : Prop :=
  Lexeme.read s.toList = (⟨.number, s.toList⟩, [])

/-- What may stand in brackets, or after `script`. -/
def IsSize (s : String) : Prop :=
  IsName s ∨ IsNumber s

/-- A text that can stand in quotes. -/
def IsQuotable (s : String) : Prop :=
  '"' ∉ s.toList

/-- A single word, a number or a text in quotes. -/
inductive IsLiteral : String → Prop
  | word {s : String} (h : IsWord s) : IsLiteral s
  | number {s : String} (h : IsNumber s) : IsLiteral s
  | quoted {s : String} (h : IsQuotable s) : IsLiteral (quote s)

/-! ## Values and initialisers -/

/-- A value that can be read from some source, wherever a scanner may stand in it, while all
trivia is skipped. -/
def IsReadable (v : Value) : Prop :=
  ∃ (source : List Char) (cs : List Command) (t : Scanner),
    (∀ mask, Command.setMask mask ∈ cs → mask = .all) ∧
      Value.read ((Workbench.ofScanner (.ofList source)).after cs).scanner = .ok v t

/-- A text that is one group in braces: after a first brace the braces are closed with the last
token of the text, and not before. -/
structure IsBraceGroup (text : String) (n : Nat) : Prop where
  opens : text.toList.head? = some '{'
  inner : ∀ i < n, 0 < ((Scanner.ofString text).next.ahead i).braces
  closed : ((Scanner.ofString text).next.ahead n).braces = 0
  ends : ((Scanner.ofString text).next.ahead n).rest = []

/-- The line comments in a text. -/
def remarks (text : String) : List String :=
  (Scanner.ofString text).readAll.2.comments

end Printing

open Printing

/-- The line comments in the initialiser of a variable. -/
def Variable.remarks : Variable → List String
  | array _ _ (some initializer) => Printing.remarks initializer
  | array _ _ none | scalar _ _ | record _ _ => []

/-- The line comments in a declaration. -/
def Declaration.remarks : Declaration → List String
  | variableGroup v => v.items.flatMap Variable.remarks
  | _ => []

/-! ## Declarations -/

structure DefineDecl.IsNormal (d : DefineDecl) : Prop where
  key : IsName d.key
  upper : Text.uppercase d.key = d.key
  value : IsReadable d.value

structure IndexedVariable.IsNormal (v : IndexedVariable) : Prop where
  type : IsType v.type
  index : IsNumber v.index
  name : IsName v.name

structure EnumMember.IsNormal (m : EnumMember) : Prop where
  name : IsName m.name
  value : ∀ v ∈ m.value, IsReadable v

structure EnumDecl.IsNormal (e : EnumDecl) : Prop where
  name : ∀ s ∈ e.name, IsName s
  underlying : ∀ s ∈ e.underlying, IsType s
  members : ∀ m ∈ e.members, m.IsNormal

structure StructMember.IsNormal (m : StructMember) : Prop where
  type : IsType m.type
  name : IsName m.name
  size : ∀ s ∈ m.size, IsSize s

structure StructDecl.IsNormal (s : StructDecl) : Prop where
  name : ∀ n ∈ s.name, IsName n
  members : ∀ m ∈ s.members, m.IsNormal
  instances : ∀ n ∈ s.instances, IsName n

/-- A type of functions has not just the parameter `void`, which stands for none. -/
def Typedef.IsNormal : Typedef → Prop
  | forType type name size => IsType type ∧ IsName name ∧ ∀ s ∈ size, IsSize s
  | forFunction returnType name types =>
    IsType returnType ∧ IsName name ∧ (∀ type ∈ types, IsType type) ∧ types ≠ ["void"]

/-- A variable with a value; a brace in it would begin another initialiser. -/
def Variable.IsNormal : Variable → Prop
  | scalar name value =>
    IsName name ∧ ∀ v ∈ value, IsReadable v ∧ ∀ leaf ∈ v.leaves, leaf.1 ≠ .lbrace
  | array name size initializer =>
    IsName name ∧ (∀ s ∈ size, IsSize s) ∧ ∀ text ∈ initializer, ∃ n, IsBraceGroup text n
  | record name values => IsName name ∧ ∀ value ∈ values, IsLiteral value

structure VariablesDecl.IsNormal (v : VariablesDecl) : Prop where
  type : IsType v.type
  nonempty : v.items ≠ []
  items : ∀ item ∈ v.items, item.IsNormal

structure ScriptParameter.IsNormal (p : ScriptParameter) : Prop where
  type : IsType p.type
  name : ∀ n ∈ p.name, IsName n

structure ScriptDecl.IsNormal (s : ScriptDecl) : Prop where
  identifier : if s.isQuoted then IsQuotable s.identifier else IsSize s.identifier
  parameters : ∀ p ∈ s.parameters, p.IsNormal
  not_void : s.parameters ≠ [⟨"void", none⟩]
  activator : ∀ a ∈ s.activator, IsType a ∧ a ≠ "net" ∧ a ≠ "clientside"

structure Parameter.IsNormal (p : Parameter) : Prop where
  type : IsType p.type
  name : IsName p.name
  default : ∀ d ∈ p.default, IsLiteral d

structure FunctionDecl.IsNormal (f : FunctionDecl) : Prop where
  returnType : IsType f.returnType
  name : IsName f.name
  parameters : ∀ p ∈ f.parameters, p.IsNormal

/-- A declaration in normal form; an include has none. -/
def Declaration.IsNormal : Declaration → Prop
  | library name => IsQuotable name ∧ Text.uppercase name = name
  | importFile path => IsQuotable path ∧ Text.lowercase path = path
  | includeFile _ => False
  | define d => d.IsNormal
  | libDefine d => d.IsNormal
  | worldVariable v => v.IsNormal
  | globalVariable v => v.IsNormal
  | enum e => e.IsNormal
  | struct s => s.IsNormal
  | typedef t => t.IsNormal
  | variableGroup v => v.IsNormal
  | script s => s.IsNormal
  | function f => f.IsNormal

/-! ## Trees -/

/-- One level of a tree in normal form: it has no notes and no documentation, and its namespaces
have different keys. -/
structure Tree.IsNormalLevel (t : Tree) : Prop where
  notes : t.notes = #[]
  doc : ∀ e ∈ t.entries, e.doc = none
  declaration : ∀ e ∈ t.entries, e.declaration.IsNormal
  key : ∀ child ∈ t.children, ∀ name ∈ child.1.name, IsName name
  distinct : (t.children.map Prod.fst).Nodup

/-- A tree in normal form. -/
def Tree.IsNormal (t : Tree) : Prop :=
  t.EveryLevel IsNormalLevel

end AcsOutline
