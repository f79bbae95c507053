import AcsOutline.Binding

/-!
# Outlines

The text that shows a tree: one line for each declaration and each namespace, indented by two
spaces for every level, and sections for notes and for function bindings.
-/

namespace AcsOutline

/-- Lines as one text, each with a line break after it. -/
def unlines (lines : List String) : String :=
  String.join (lines.map (· ++ "\n"))

/-- What lines are indented by on each level. -/
def indent : String := "  "

/-- A parameter as it is shown. -/
def Parameter.render (p : Parameter) : String :=
  match p.default with
  | some value => p.type ++ " " ++ p.name ++ " = " ++ value
  | none => p.type ++ " " ++ p.name

/-- The parameters of a function as they are shown. -/
def FunctionDecl.renderParameters (f : FunctionDecl) : String :=
  ", ".intercalate (f.parameters.map Parameter.render)

namespace Declaration

/-- A declaration with the details that an outline has. -/
def detail (d : Declaration) : String :=
  match d with
  | define x | libDefine x =>
    if x.value.isEmpty then d.label else d.label ++ " = " ++ x.value.text
  | function f => "function " ++ f.returnType ++ " " ++ f.name ++ "(" ++ f.renderParameters ++ ")"
  | script s =>
    let activator := match s.activator with
      | some a => " " ++ a
      | none => ""
    d.label ++ activator ++ (if s.isNet then " net" else "") ++
      (if s.isClientside then " clientside" else "")
  | _ => d.label

end Declaration

/-- A declaration in an outline, without its indentation. -/
def Entry.outlineText (e : Entry) : String :=
  let access := if e.declaration.isPrivate then "private " else ""
  let summary := match e.doc.bind (·.summary) with
    | some s => "  // " ++ s
    | none => ""
  access ++ e.declaration.detail ++ "  [line " ++ toString e.line ++ "]" ++ summary

namespace Tree

mutual

/-- The lines that show a tree, after an indentation. -/
def outlineLines (margin : String) : Tree → List String
  | ⟨_, entries, children⟩ =>
    entries.toList.map (fun e => margin ++ e.outlineText) ++ outlineLinesAll margin children

/-- The lines that show namespaces, after an indentation. -/
def outlineLinesAll (margin : String) : List (NamespaceKey × Tree) → List String
  | [] => []
  | (key, t) :: rest =>
    (margin ++ key.render) :: (t.outlineLines (margin ++ indent) ++ outlineLinesAll margin rest)

end

/-- The text that shows a tree. -/
def outline (t : Tree) : String :=
  unlines (t.outlineLines "")

end Tree

/-- The section that shows notes. -/
def noteSection (notes : List TaskNote) : String :=
  unlines ("tasks:" :: notes.map (indent ++ ·.render))

/-- A function binding as it is shown. -/
def Binding.render (b : Binding) : String :=
  b.qualifiedName ++ "(" ++ b.function.renderParameters ++ ") -> " ++ b.function.returnType ++
    "  [line " ++ toString b.line ++ "]"

/-- The section that shows function bindings. -/
def bindingSection (bindings : List Binding) : String :=
  unlines ("bindings:" :: bindings.map (indent ++ ·.render))

end AcsOutline
