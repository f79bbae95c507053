import AcsOutline.Declaration
import AcsOutline.Grammar.Basic
import AcsOutline.Value.Reader

/-!
# Enums and structs

`private? enum Name? (: type)? { A, B = value };?` and
`private? struct Name? { type a, b[4]; } instance, ...;?`.
-/

namespace AcsOutline.Grammar

open Reading

/-- Takes the access modifier of a declaration and its word, if they are here. -/
def aggregateHead (word : Keyword) : Reading (Option Bool) :=
  tentatively do
    let isPrivate ← accessModifier
    if (← current).kind = .keyword word then
      return some isPrivate
    else
      return none

theorem within_aggregateHead (word : Keyword) : (aggregateHead word).Within :=
  .tentatively <| within_accessModifier.bind fun _ => within_current.bind fun _ => by
    split <;> exact within_pure _

/-! ## Enums -/

/-- Reads the type of an enum, if the current token is the colon before it, up to the token
after it. -/
def takeUnderlying : Reading (Option String) := do
  if (← current).kind = .colon then
    let type ← expect .symbol "underlying enum type"
    let _ ← next
    return some (typeText type)
  else
    return none

theorem within_takeUnderlying : takeUnderlying.Within :=
  within_current.bind fun _ => by
    split
    · exact (consumes_expect (by decide) _).within.bind fun _ =>
        within_next.bind fun _ => within_pure _
    · exact within_pure _

/-- Reads the value of an enum member, if the token that follows is an equals sign, up to the
token after it. -/
def memberValue : Reading (Option Value) := do
  if (← next).kind = .equals then
    let _ ← advance
    some <$> Value.read
  else
    return none

theorem within_memberValue : memberValue.Within :=
  within_next.bind fun _ => by
    split
    · exact consumes_advance.within.bind fun _ => Value.within_read.map _
    · exact within_pure _

/-- Reads an enum member after its name, and the comma or closing brace after it. -/
def enumMemberTail (name : Token) : Reading (List EnumMember × Bool) := do
  let value ← memberValue
  let after ← current
  match after.kind with
  | .rbrace => return ([⟨name.text, value⟩], false)
  | .comma => return ([⟨name.text, value⟩], true)
  | _ => unexpected "`,` or `\x7d` after the enum member" after

theorem within_enumMemberTail (name : Token) : (enumMemberTail name).Within :=
  within_memberValue.bind fun _ => within_current.bind fun _ => by
    split
    · exact within_pure _
    · exact within_pure _
    · exact (consumes_unexpected _ _).within

/-- Reads an enum member, or the closing brace. -/
def enumMember : Reading (List EnumMember × Bool) := do
  let t ← next
  if t.kind = .rbrace then
    return ([], false)
  else
    let name ← check t .symbol "enum member name or `\x7d`"
    enumMemberTail name

theorem consumes_enumMember : enumMember.Consumes :=
  consumes_next_bind
    (fun _ _ => by
      split
      · exact within_pure _
      · exact (within_check _ _ _).bind within_enumMemberTail)
    (fun _ h => by
      rw [if_neg (by rw [h]; decide)]
      exact (fails_check_of_ne (by rw [h]; decide)).bind _)

/-- Reads an enum, if one is declared here. -/
def enumDeclaration : Reading (Option Declaration) := do
  match ← aggregateHead .enumWord with
  | none => return none
  | some isPrivate =>
    let _ ← next
    let name ← takeName
    let underlying ← takeUnderlying
    let _ ← check (← current) .lbrace "`\x7b` to open the enum body"
    let members ← gather enumMember consumes_enumMember
    takeSemicolon
    return some (.enum ⟨isPrivate, name, underlying, members⟩)

theorem within_enumDeclaration : enumDeclaration.Within :=
  (within_aggregateHead _).bind fun _ => by
    split
    · exact within_pure _
    · exact within_next.bind fun _ => within_takeName.bind fun _ =>
        within_takeUnderlying.bind fun _ => within_current.bind fun _ =>
          (within_check _ _ _).bind fun _ => (within_gather _).bind fun _ =>
            within_takeSemicolon.bind fun _ => within_pure _

/-! ## Structs -/

/-- Reads the size of a member, if the token that follows is an opening bracket, up to the
token after it. -/
def memberSize : Reading (Option String) := do
  if (← next).kind = .lbracket then
    let size ← bracketSize
    let _ ← next
    return size
  else
    return none

theorem within_memberSize : memberSize.Within :=
  within_next.bind fun _ => by
    split
    · exact within_bracketSize.bind fun _ => within_next.bind fun _ => within_pure _
    · exact within_pure _

/-- Reads a name of a struct member and the comma or semicolon after it. -/
def structName (type : String) : Reading (List StructMember × Bool) := do
  let name ← expect .symbol "member name"
  let size ← memberSize
  let after ← current
  match after.kind with
  | .comma => return ([⟨type, name.text, size⟩], true)
  | .semicolon => return ([⟨type, name.text, size⟩], false)
  | _ => unexpected "`,` or `;` after the member" after

theorem consumes_structName (type : String) : (structName type).Consumes :=
  (consumes_expect (by decide) _).bind fun _ => within_memberSize.bind fun _ =>
    within_current.bind fun _ => by
      split
      · exact within_pure _
      · exact within_pure _
      · exact (consumes_unexpected _ _).within

/-- Reads the names of struct members after their type. -/
def structNames (type : Token) : Reading (List StructMember × Bool) := do
  let members ← gather (structName (typeText type)) (consumes_structName _)
  return (members, true)

theorem within_structNames (type : Token) : (structNames type).Within :=
  (within_gather _).bind fun _ => within_pure _

/-- Reads struct members of one type, or the closing brace. -/
def structMembers : Reading (List StructMember × Bool) := do
  let t ← next
  if t.kind = .rbrace then
    return ([], false)
  else
    let type ← check t .symbol "member type or `\x7d`"
    structNames type

theorem consumes_structMembers : structMembers.Consumes :=
  consumes_next_bind
    (fun _ _ => by
      split
      · exact within_pure _
      · exact (within_check _ _ _).bind within_structNames)
    (fun _ h => by
      rw [if_neg (by rw [h]; decide)]
      exact (fails_check_of_ne (by rw [h]; decide)).bind _)

/-- Reads the name of an instance and the comma or semicolon after it. -/
def instanceName : Reading (List String × Bool) := do
  let name ← expect .symbol "instance name"
  let after ← next
  match after.kind with
  | .comma => return ([name.text], true)
  | .semicolon => return ([name.text], false)
  | _ => unexpected "`,` or `;` after the instance name" after

theorem consumes_instanceName : instanceName.Consumes :=
  (consumes_expect (by decide) _).bind fun _ => within_next.bind fun _ => by
    split
    · exact within_pure _
    · exact within_pure _
    · exact (consumes_unexpected _ _).within

/-- Reads what follows the closing brace of a struct: a semicolon, or names of instances up to
one.  Names are only taken where the two tokens that follow look like `name,` or `name;`;
anything else belongs to the next declaration. -/
def structInstances : Reading (List String) := do
  let (first, second) ← peekTwo
  if first.kind = .semicolon then
    let _ ← advance
    return []
  else if first.kind = .symbol ∧ (second.kind = .comma ∨ second.kind = .semicolon) then
    gather instanceName consumes_instanceName
  else
    return []

theorem within_structInstances : structInstances.Within :=
  within_peekTwo.bind fun ⟨_, _⟩ => by
    dsimp only
    split
    · exact consumes_advance.within.bind fun _ => within_pure _
    · split
      · exact within_gather _
      · exact within_pure _

/-- Reads a struct, if one is declared here. -/
def structDeclaration : Reading (Option Declaration) := do
  match ← aggregateHead .structWord with
  | none => return none
  | some isPrivate =>
    let _ ← next
    let name ← takeName
    let _ ← check (← current) .lbrace "`\x7b` to open the struct body"
    let members ← gather structMembers consumes_structMembers
    let instances ← structInstances
    return some (.struct ⟨isPrivate, name, members, instances⟩)

theorem within_structDeclaration : structDeclaration.Within :=
  (within_aggregateHead _).bind fun _ => by
    split
    · exact within_pure _
    · exact within_next.bind fun _ => within_takeName.bind fun _ =>
        within_current.bind fun _ => (within_check _ _ _).bind fun _ =>
          (within_gather _).bind fun _ => within_structInstances.bind fun _ => within_pure _

end AcsOutline.Grammar
