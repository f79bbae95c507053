import AcsOutline.Declaration
import AcsOutline.Grammar.Basic

/-!
# Type definitions

`typedef int Name;` and `typedef int Name[4];` name a type, `typedef void Name(int, str);`
names a type of functions.
-/

namespace AcsOutline.Grammar

open Reading

/-- Reads what follows a parameter type that has no name: only the token after it. -/
def bareType (type : String) : Reading String := do
  let _ ← next
  return type

theorem within_bareType (type : String) : (bareType type).Within :=
  within_next.bind fun _ => within_pure _

/-- Reads the semicolon that ends a type definition. -/
def endTypedef (t : Typedef) : Reading Declaration := do
  let _ ← expect .semicolon "`;`"
  return .typedef t

theorem within_endTypedef (t : Typedef) : (endTypedef t).Within :=
  (consumes_expect (by decide) _).within.bind fun _ => within_pure _

/-- Reads a type definition after `typedef`. -/
def typedefBody : Reading Declaration := do
  let type ← expect .symbol "type name"
  let name ← expect .symbol "typedef name"
  let after ← next
  match after.kind with
  | .semicolon => return .typedef (.forType (typeText type) name.text none)
  | .lbracket => endTypedef (.forType (typeText type) name.text (← bracketSize))
  | .lparen =>
    endTypedef (.forFunction (typeText type) name.text (← parameters bareType within_bareType))
  | _ => unexpected "`;`, `[` or `(`" after

theorem within_typedefBody : typedefBody.Within :=
  (consumes_expect (by decide) _).within.bind fun _ =>
    (consumes_expect (by decide) _).within.bind fun _ => within_next.bind fun _ => by
      split
      · exact within_pure _
      · exact within_bracketSize.bind fun _ => within_endTypedef _
      · exact (within_parameters _).bind fun _ => within_endTypedef _
      · exact (consumes_unexpected _ _).within

/-- Reads a type definition if the current token is `typedef`. -/
def typedefDeclaration : Reading (Option Declaration) := do
  if (← current).kind = .keyword .typedefWord then
    some <$> typedefBody
  else
    return none

theorem within_typedefDeclaration : typedefDeclaration.Within :=
  within_current.bind fun _ => by
    split
    · exact within_typedefBody.map _
    · exact within_pure _

end AcsOutline.Grammar
