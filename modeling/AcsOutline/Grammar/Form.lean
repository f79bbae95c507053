import AcsOutline.Grammar.Aggregate
import AcsOutline.Grammar.Callable
import AcsOutline.Grammar.Directive
import AcsOutline.Grammar.Namespace
import AcsOutline.Grammar.Typedef
import AcsOutline.Grammar.Variable
import AcsOutline.Tree.Builder

/-!
# Forms of declarations

A `Form` is one way in which a declaration can be written.  `Form.attempt` tries a form at the
current token: it *declines* where the form does not start here, *matches* it, or fails.  All
but the two forms of namespaces leave the tree alone.  `recognize` offers a declaration to the
forms in a fixed order, and the first that does not decline decides.
-/

namespace AcsOutline

/-- The ways in which a declaration can be written. -/
inductive Form where
  | namespaceOpen
  | namespaceClose
  | importFile
  | library
  | includeFile
  | define
  | libDefine
  | typedef
  | worldVariable
  | globalVariable
  | enum
  | struct
  | function
  | script
  | variableGroup
deriving DecidableEq, Inhabited

namespace Form

/-- How a form is named in messages. -/
def title : Form → String
  | namespaceOpen => "namespace"
  | namespaceClose => "namespace close"
  | importFile => "#import"
  | library => "#library"
  | includeFile => "#include"
  | define => "#define"
  | libDefine => "#libdefine"
  | typedef => "typedef"
  | worldVariable => "world variable"
  | globalVariable => "global variable"
  | enum => "enum"
  | struct => "struct"
  | function => "function"
  | script => "script"
  | variableGroup => "variable declaration"

/-- Every form, in the order in which they are tried.  Where `private` begins several forms,
the one with the least particular start comes last. -/
def all : List Form :=
  [namespaceOpen, namespaceClose, importFile, library, includeFile, define, libDefine, typedef,
    worldVariable, globalVariable, enum, struct, function, script, variableGroup]

/-- The form with a given title. -/
def ofTitle? (title : String) : Option Form :=
  all.find? fun f => f.title == title

end Form

/-- What a form does with the current token. -/
inductive Outcome where
  /-- The form does not start here. -/
  | declined
  /-- The form is here; namespaces declare nothing themselves. -/
  | matched (declaration : Option Declaration)
deriving DecidableEq, Inhabited

/-- What the forms work on: the scanner and the tree under construction. -/
structure Desk where
  scanner : Scanner
  /-- The tree, with the namespaces that are open. -/
  builder : Builder
deriving Inhabited

namespace Form

/-- A form that leaves the tree alone. -/
def ofReading (p : Reading (Option Declaration)) : EStateM Fault Desk Outcome := fun d =>
  match p d.scanner with
  | .ok (some declaration) s => .ok (.matched (some declaration)) { d with scanner := s }
  | .ok none s => .ok .declined { d with scanner := s }
  | .error fault s => .error fault { d with scanner := s }

/-- Opens the namespaces of a head, as many as there are before a fault in it. -/
def openNamespaces : EStateM Fault Desk Outcome := fun d =>
  match Grammar.namespaceHead d.scanner with
  | .ok (some head) s =>
    let desk : Desk := ⟨s, head.keys.foldl Builder.enter d.builder⟩
    match head.fault with
    | none => .ok (.matched none) desk
    | some fault => .error fault desk
  | .ok none s => .ok .declined { d with scanner := s }
  | .error fault s => .error fault { d with scanner := s }

/-- Leaves the innermost open namespace at a closing brace. -/
def closeNamespace : EStateM Fault Desk Outcome := fun d =>
  if d.scanner.token.kind = .rbrace then
    match d.builder.leave? with
    | some builder => .ok (.matched none) { d with builder }
    | none => .error (.unmatchedBrace d.scanner.token.span) d
  else
    .ok .declined d

/-- Tries a form at the current token. -/
def attempt : Form → EStateM Fault Desk Outcome
  | namespaceOpen => openNamespaces
  | namespaceClose => closeNamespace
  | importFile => ofReading Grammar.importDirective
  | library => ofReading Grammar.libraryDirective
  | includeFile => ofReading Grammar.includeDirective
  | define => ofReading Grammar.defineDirective
  | libDefine => ofReading Grammar.libDefineDirective
  | typedef => ofReading Grammar.typedefDeclaration
  | worldVariable =>
    ofReading (Grammar.indexedDeclaration .worldWord .worldVariable)
  | globalVariable =>
    ofReading (Grammar.indexedDeclaration .globalWord .globalVariable)
  | enum => ofReading Grammar.enumDeclaration
  | struct => ofReading Grammar.structDeclaration
  | function => ofReading Grammar.functionDeclaration
  | script => ofReading Grammar.scriptDeclaration
  | variableGroup => ofReading Grammar.variablesDeclaration

end Form

/-- Why a declaration is not recognized: the fault, and the form that it arose in. -/
structure Rejection where
  /-- The form that was being read; none where no form starts at the token. -/
  form : Option Form
  fault : Fault
deriving DecidableEq, Inhabited

/-- Offers the current token to forms in turn. -/
def recognizeAmong : List Form → EStateM Rejection Desk (Option Declaration)
  | [], d => .error ⟨none, .noDeclaration d.scanner.token⟩ d
  | form :: forms, d =>
    match form.attempt d with
    | .ok .declined d' => recognizeAmong forms d'
    | .ok (.matched declaration) d' => .ok declaration d'
    | .error fault d' => .error ⟨some form, fault⟩ d'

/-- Reads the declaration that starts with the current token. -/
def recognize : EStateM Rejection Desk (Option Declaration) :=
  recognizeAmong Form.all

/-! ## What is left to read -/

namespace Form

/-- A form that, where it does not fail, has only read tokens. -/
def Within (p : EStateM Fault Desk Outcome) : Prop :=
  ∀ ⦃d outcome d'⦄, p d = .ok outcome d' → d.scanner.Reads d'.scanner

theorem within_ofReading {p : Reading (Option Declaration)} (h : p.Within) :
    Within (ofReading p) := by
  intro d outcome d' e
  unfold ofReading at e
  split at e
  next h' =>
    cases e
    exact h h'
  next h' =>
    cases e
    exact h h'
  next => cases e

theorem within_openNamespaces : Within openNamespaces := by
  intro d outcome d' e
  unfold openNamespaces at e
  split at e
  next h' =>
    dsimp only at e
    split at e
    · cases e
      exact Grammar.within_namespaceHead h'
    · cases e
  next h' =>
    cases e
    exact Grammar.within_namespaceHead h'
  next => cases e

theorem within_closeNamespace : Within closeNamespace := by
  intro d outcome d' e
  unfold closeNamespace at e
  split at e
  · split at e <;> cases e
    exact .refl _
  · cases e
    exact .refl _

theorem within_attempt (form : Form) : Within form.attempt := by
  cases form with
  | namespaceOpen => exact within_openNamespaces
  | namespaceClose => exact within_closeNamespace
  | importFile => exact within_ofReading Grammar.within_importDirective
  | library => exact within_ofReading Grammar.within_libraryDirective
  | includeFile => exact within_ofReading Grammar.within_includeDirective
  | define => exact within_ofReading Grammar.within_defineDirective
  | libDefine => exact within_ofReading Grammar.within_libDefineDirective
  | typedef => exact within_ofReading Grammar.within_typedefDeclaration
  | worldVariable => exact within_ofReading (Grammar.within_indexedDeclaration _ _)
  | globalVariable => exact within_ofReading (Grammar.within_indexedDeclaration _ _)
  | enum => exact within_ofReading Grammar.within_enumDeclaration
  | struct => exact within_ofReading Grammar.within_structDeclaration
  | function => exact within_ofReading Grammar.within_functionDeclaration
  | script => exact within_ofReading Grammar.within_scriptDeclaration
  | variableGroup => exact within_ofReading Grammar.within_variablesDeclaration

end Form

theorem reads_recognizeAmong {forms : List Form} {d d' : Desk}
    {declaration : Option Declaration} (h : recognizeAmong forms d = .ok declaration d') :
    d.scanner.Reads d'.scanner := by
  induction forms generalizing d with
  | nil => cases h
  | cons form forms ih =>
    unfold recognizeAmong at h
    split at h
    next h' => exact (form.within_attempt h').trans (ih h)
    next h' =>
      cases h
      exact form.within_attempt h'
    next => cases h

/-- To recognize a declaration is to read tokens. -/
theorem reads_recognize {d d' : Desk} {declaration : Option Declaration}
    (h : recognize d = .ok declaration d') : d.scanner.Reads d'.scanner :=
  reads_recognizeAmong h

/-- A declaration takes no more than there is. -/
theorem remaining_recognize_le {d d' : Desk} {declaration : Option Declaration}
    (h : recognize d = .ok declaration d') : d'.scanner.remaining ≤ d.scanner.remaining :=
  (reads_recognize h).remaining_le

end AcsOutline
