import AcsOutline.Scanner.Reading
import AcsOutline.Text.Casing

/-!
# Parts that declarations share

Readings for what several declarations have in common: the access modifier, a size between
brackets, a list of parameters, and the test whether a function follows.  Beside each stands
the fact that it keeps within its input, or that it consumes some of it.
-/

namespace AcsOutline.Grammar

open Reading

variable {α : Type}

/-- The text of a type token: types are in lower case. -/
def typeText (t : Token) : String :=
  Text.lowercase t.text

/-- Takes a leading `private`, so that the token after it is the current one, and tells
whether it was there. -/
def accessModifier : Reading Bool := do
  if (← current).kind = .keyword .privateWord then
    let _ ← next
    return true
  else
    return false

theorem within_accessModifier : accessModifier.Within :=
  within_current.bind fun _ => by
    split
    · exact within_next.bind fun _ => within_pure _
    · exact within_pure _

/-- Whether the current token starts `type name (`. -/
def startsFunction : Reading Bool := do
  let t ← current
  let (name, opening) ← peekTwo
  return t.kind == .symbol && name.kind == .symbol && opening.kind == .lparen

theorem within_startsFunction : startsFunction.Within :=
  within_current.bind fun _ => within_peekTwo.bind fun _ => within_pure _

/-- Takes the current token if it is a name. -/
def takeName : Reading (Option String) := do
  let t ← current
  if t.kind = .symbol then
    let _ ← next
    return some t.text
  else
    return none

theorem within_takeName : takeName.Within :=
  within_current.bind fun _ => by
    split
    · exact within_next.bind fun _ => within_pure _
    · exact within_pure _

/-- Takes the token that follows if it is a semicolon. -/
def takeSemicolon : Reading Unit := do
  if (← peek).kind = .semicolon then
    let _ ← advance
    return ()
  else
    return ()

theorem within_takeSemicolon : takeSemicolon.Within :=
  within_peek.bind fun _ => by
    split
    · exact consumes_advance.within.bind fun _ => within_pure _
    · exact within_pure _

/-- Reads what follows an opening bracket: one token and the closing bracket, or only that. -/
def bracketSize : Reading (Option String) := do
  let size ← advance
  if size.kind = .rbracket then
    return none
  else
    let _ ← expect .rbracket "`]`"
    return some size.text

theorem within_bracketSize : bracketSize.Within :=
  consumes_advance.within.bind fun _ => by
    split
    · exact within_pure _
    · exact (consumes_expect (by decide) _).within.bind fun _ => within_pure _

/-- Takes the token before `)` in a parameter list that has no parameters, if there is one. -/
def takeEmptyParameters : Reading Bool := do
  let (first, second) ← peekTwo
  if first.kind = .rparen then
    let _ ← next
    return true
  else if first.isWord "void" ∧ second.kind = .rparen then
    let _ ← next
    let _ ← next
    return true
  else
    return false

theorem within_takeEmptyParameters : takeEmptyParameters.Within :=
  within_peekTwo.bind fun ⟨_, _⟩ => by
    dsimp only
    split
    · exact within_next.bind fun _ => within_pure _
    · split
      · exact within_next.bind fun _ => within_next.bind fun _ => within_pure _
      · exact within_pure _

/-- Reads a parameter and the comma or closing parenthesis after it.  `tail` reads what
follows the type and ends on the token after the parameter. -/
def parameter (tail : String → Reading α) : Reading (List α × Bool) := do
  let type ← expect .symbol "parameter type"
  let p ← tail (typeText type)
  let after ← current
  match after.kind with
  | .rparen => return ([p], false)
  | .comma => return ([p], true)
  | _ => unexpected "`,` or `)`" after

theorem consumes_parameter {tail : String → Reading α} (h : ∀ type, (tail type).Within) :
    (parameter tail).Consumes :=
  (consumes_expect (by decide) _).bind fun _ => (h _).bind fun _ =>
    within_current.bind fun _ => by
      split
      · exact within_pure _
      · exact within_pure _
      · exact (consumes_unexpected _ _).within

/-- Reads the parameters after an opening parenthesis, up to the closing one.  A lone `void`
stands for no parameters. -/
def parameters (tail : String → Reading α) (h : ∀ type, (tail type).Within) :
    Reading (List α) := do
  if ← takeEmptyParameters then
    return []
  else
    gather (parameter tail) (consumes_parameter h)

theorem within_parameters {tail : String → Reading α} (h : ∀ type, (tail type).Within) :
    (parameters tail h).Within :=
  within_takeEmptyParameters.bind fun _ => by
    split
    · exact within_pure _
    · exact within_gather _

end AcsOutline.Grammar
