import AcsOutline.Declaration
import AcsOutline.Grammar.Basic
import AcsOutline.Grammar.Block
import AcsOutline.Value.Reader

/-!
# Variables

`world int 1:name;` and `global int 1:name[];` declare a variable with a number.  Any other
`type name` that starts no function declares variables of one type, each perhaps with a value.
-/

namespace AcsOutline.Grammar

open Reading

/-! ## Variables with a number -/

/-- Reads the brackets of an array, if the current token opens them, up to the token after
them. -/
def takeEmptyBrackets : Reading Bool := do
  if (← current).kind = .lbracket then
    let _ ← expect .rbracket "`]`"
    let _ ← next
    return true
  else
    return false

theorem within_takeEmptyBrackets : takeEmptyBrackets.Within :=
  within_current.bind fun _ => by
    split
    · exact (consumes_expect (by decide) _).within.bind fun _ =>
        within_next.bind fun _ => within_pure _
    · exact within_pure _

/-- Reads a variable with a number after `world` or `global`. -/
def indexedVariable : Reading IndexedVariable := do
  let type ← expect .symbol "variable type"
  let index ← expect .number "variable index"
  let _ ← expect .colon "`:` after the index"
  let name ← expect .symbol "variable name"
  let _ ← next
  let isArray ← takeEmptyBrackets
  let _ ← check (← current) .semicolon "`;`"
  return ⟨typeText type, index.text, name.text, isArray⟩

theorem within_indexedVariable : indexedVariable.Within :=
  (consumes_expect (by decide) _).within.bind fun _ =>
    (consumes_expect (by decide) _).within.bind fun _ =>
      (consumes_expect (by decide) _).within.bind fun _ =>
        (consumes_expect (by decide) _).within.bind fun _ => within_next.bind fun _ =>
          within_takeEmptyBrackets.bind fun _ => within_current.bind fun _ =>
            (within_check _ _ _).bind fun _ => within_pure _

/-- Reads a variable with a number if the current token is the word for its scope. -/
def indexedDeclaration (word : Keyword) (declare : IndexedVariable → Declaration) :
    Reading (Option Declaration) := do
  if (← current).kind = .keyword word then
    (some <| declare ·) <$> indexedVariable
  else
    return none

theorem within_indexedDeclaration (word : Keyword) (declare : IndexedVariable → Declaration) :
    (indexedDeclaration word declare).Within :=
  within_current.bind fun _ => by
    split
    · exact within_indexedVariable.map _
    · exact within_pure _

/-! ## Variables of one type -/

/-- Reads the rest of an array after its opening bracket, up to the token after it. -/
def arrayTail (name : String) : Reading Variable := do
  let size ← bracketSize
  if (← next).kind = .equals then
    let initializer ← arrayInitializer
    let _ ← next
    return .array name size (some initializer)
  else
    return .array name size none

theorem within_arrayTail (name : String) : (arrayTail name).Within :=
  within_bracketSize.bind fun _ => within_next.bind fun _ => by
    split
    · exact within_arrayInitializer.bind fun _ => within_next.bind fun _ => within_pure _
    · exact within_pure _

/-- Reads the value of a variable after the equals sign, up to the token after it. -/
def initialValue (name : String) : Reading Variable := do
  if (← peek).kind = .lbrace then
    let values ← recordInitializer
    let _ ← next
    return .record name values
  else
    let _ ← advance
    let value ← Value.read
    return .scalar name (some value)

theorem within_initialValue (name : String) : (initialValue name).Within :=
  within_peek.bind fun _ => by
    split
    · exact within_recordInitializer.bind fun _ => within_next.bind fun _ => within_pure _
    · exact consumes_advance.within.bind fun _ => Value.within_read.bind fun _ => within_pure _

/-- Reads what follows the name of a variable, up to the token after the variable. -/
def variableTail (name : String) : Reading Variable := do
  let after ← next
  if after.kind = .lbracket then
    arrayTail name
  else if after.kind = .equals then
    initialValue name
  else
    return .scalar name none

theorem within_variableTail (name : String) : (variableTail name).Within :=
  within_next.bind fun _ => by
    split
    · exact within_arrayTail name
    · split
      · exact within_initialValue name
      · exact within_pure _

/-- Reads one variable and the comma or semicolon after it. -/
def variableItem : Reading (List Variable × Bool) := do
  let name ← expect .symbol "variable name"
  let v ← variableTail name.text
  let after ← current
  match after.kind with
  | .semicolon => return ([v], false)
  | .comma => return ([v], true)
  | _ => unexpected "`,` or `;` after the variable" after

theorem consumes_variableItem : variableItem.Consumes :=
  (consumes_expect (by decide) _).bind fun _ => (within_variableTail _).bind fun _ =>
    within_current.bind fun _ => by
      split
      · exact within_pure _
      · exact within_pure _
      · exact (consumes_unexpected _ _).within

/-- Takes the access modifier of variables, if the type of variables follows it.  After
`private` nothing but a type may stand. -/
def variablesHead : Reading (Option Bool) :=
  tentatively do
    let isPrivate ← accessModifier
    let t ← current
    if isPrivate ∧ t.kind ≠ .symbol then
      unexpected "a declaration after `private`" t
    else if t.kind ≠ .symbol then
      return none
    else if ← startsFunction then
      return none
    else
      return some isPrivate

theorem within_variablesHead : variablesHead.Within :=
  .tentatively <| within_accessModifier.bind fun _ => within_current.bind fun _ => by
    split
    · exact (consumes_unexpected _ _).within
    · split
      · exact within_pure _
      · refine within_startsFunction.bind fun _ => ?_
        split <;> exact within_pure _

/-- Reads variables of one type, if they are declared here. -/
def variablesDeclaration : Reading (Option Declaration) := do
  match ← variablesHead with
  | none => return none
  | some isPrivate =>
    let type ← current
    let items ← gather variableItem consumes_variableItem
    return some (.variableGroup ⟨isPrivate, typeText type, items⟩)

theorem within_variablesDeclaration : variablesDeclaration.Within :=
  within_variablesHead.bind fun _ => by
    split
    · exact within_pure _
    · exact within_current.bind fun _ => (within_gather _).bind fun _ => within_pure _

end AcsOutline.Grammar
