import AcsOutline.Declaration
import AcsOutline.Grammar.Basic
import AcsOutline.Grammar.Block

/-!
# Functions and scripts

`private? function? type name(type name = default, ...) clientside? { ... }`, where a semicolon
may stand for the body, and `script id (params)? activator? net? clientside? { ... }`, where
the words after the parameters come in any order but each sort only once.
-/

namespace AcsOutline.Grammar

open Reading

/-! ## Functions -/

/-- Reads the default value of a parameter, if the token that follows is an equals sign, up to
the token after it. -/
def parameterDefault : Reading (Option String) := do
  if (← next).kind = .equals then
    let value ← advance
    let _ ← next
    return some value.literal
  else
    return none

theorem within_parameterDefault : parameterDefault.Within :=
  within_next.bind fun _ => by
    split
    · exact consumes_advance.within.bind fun _ => within_next.bind fun _ => within_pure _
    · exact within_pure _

/-- Reads a parameter of a function after its type, up to the token after it. -/
def functionParameter (type : String) : Reading Parameter := do
  let name ← expect .symbol "parameter name"
  return ⟨type, name.text, ← parameterDefault⟩

theorem within_functionParameter (type : String) : (functionParameter type).Within :=
  (consumes_expect (by decide) _).within.bind fun _ =>
    within_parameterDefault.bind fun _ => within_pure _

/-- Takes the access modifier and the word `function`, if a function is declared here.  The
word may be missing where a type, a name and a parenthesis follow. -/
def functionHead : Reading (Option Bool) :=
  tentatively do
    let isPrivate ← accessModifier
    if (← current).kind = .keyword .functionWord then
      let _ ← advance
      return some isPrivate
    else if ← startsFunction then
      return some isPrivate
    else
      return none

theorem within_functionHead : functionHead.Within :=
  .tentatively <| within_accessModifier.bind fun _ => within_current.bind fun _ => by
    split
    · exact consumes_advance.within.bind fun _ => within_pure _
    · refine within_startsFunction.bind fun _ => ?_
      split <;> exact within_pure _

/-- Takes the word `clientside`, if it is the token that follows, up to the token after it. -/
def takeClientside : Reading Bool := do
  if (← next).isWord "clientside" then
    let _ ← next
    return true
  else
    return false

theorem within_takeClientside : takeClientside.Within :=
  within_next.bind fun _ => by
    split
    · exact within_next.bind fun _ => within_pure _
    · exact within_pure _

/-- Reads the body of a function that starts with the current token, or the semicolon that
stands for it; `depth` is how deep the braces were before. -/
def functionBody (depth : Int) : Reading Unit := do
  let t ← current
  match t.kind with
  | .semicolon => return ()
  | .lbrace => skipTo depth "function" t.span
  | _ => unexpected "`\x7b` or `;` after the parameter list" t

theorem within_functionBody (depth : Int) : (functionBody depth).Within :=
  within_current.bind fun _ => by
    split
    · exact within_pure _
    · exact within_skipTo _ _ _
    · exact (consumes_unexpected _ _).within

/-- Reads a function up to its body, and tells how deep the braces are before it. -/
def functionSignature (isPrivate : Bool) : Reading (FunctionDecl × Int) := do
  let type ← check (← current) .symbol "return type"
  let name ← expect .symbol "function name"
  let _ ← expect .lparen "`(` to open the parameter list"
  let ps ← parameters functionParameter within_functionParameter
  let depth ← braceDepth
  let isClientside ← takeClientside
  return (⟨isPrivate, typeText type, name.text, ps, isClientside⟩, depth)

theorem within_functionSignature (isPrivate : Bool) : (functionSignature isPrivate).Within :=
  within_current.bind fun _ => (within_check _ _ _).bind fun _ =>
    (consumes_expect (by decide) _).within.bind fun _ =>
      (consumes_expect (by decide) _).within.bind fun _ =>
        (within_parameters _).bind fun _ => within_braceDepth.bind fun _ =>
          within_takeClientside.bind fun _ => within_pure _

/-- Reads a function, if one is declared here. -/
def functionDeclaration : Reading (Option Declaration) := do
  match ← functionHead with
  | none => return none
  | some isPrivate =>
    let (f, depth) ← functionSignature isPrivate
    functionBody depth
    return some (.function f)

theorem within_functionDeclaration : functionDeclaration.Within :=
  within_functionHead.bind fun _ => by
    split
    · exact within_pure _
    · exact (within_functionSignature _).bind fun _ => (within_functionBody _).bind fun _ =>
        within_pure _

/-! ## Scripts -/

/-- Reads a parameter of a script after its type, up to the token after it. -/
def scriptParameter (type : String) : Reading ScriptParameter := do
  let _ ← next
  return ⟨type, ← takeName⟩

theorem within_scriptParameter (type : String) : (scriptParameter type).Within :=
  within_next.bind fun _ => within_takeName.bind fun _ => within_pure _

/-- The sorts of words that may stand before the body of a script. -/
inductive ModifierSort where
  | activator
  | clientside
  | net
deriving DecidableEq, Inhabited

/-- The sort of a word: any that is no flag names what starts the script. -/
def ModifierSort.ofToken (t : Token) : ModifierSort :=
  if t.isWord "clientside" then clientside else if t.isWord "net" then net else activator

/-- The words that stand before the body of a script, each in the place of its sort. -/
structure Modifiers where
  /-- The word that names what starts the script. -/
  activator : Option Token
  /-- The word `clientside`. -/
  clientside : Option Token
  /-- The word `net`. -/
  net : Option Token
deriving DecidableEq, Inhabited

namespace Modifiers

/-- There are no words yet. -/
def empty : Modifiers :=
  ⟨none, none, none⟩

/-- The word in the place of a sort. -/
def get? (m : Modifiers) : ModifierSort → Option Token
  | .activator => m.activator
  | .clientside => m.clientside
  | .net => m.net

/-- Puts a word into the place of a sort. -/
def set (m : Modifiers) (t : Token) : ModifierSort → Modifiers
  | .activator => { m with activator := some t }
  | .clientside => { m with clientside := some t }
  | .net => { m with net := some t }

/-- Puts a word into the place of its sort, which has to be free. -/
def add (m : Modifiers) (t : Token) : Except Fault Modifiers :=
  match m.get? (.ofToken t) with
  | some first => .error (.repeatedModifier first t)
  | none => .ok (m.set t (.ofToken t))

end Modifiers

/-- Takes the current token as a modifier, or ends at the brace that opens the body.  With the
modifiers goes how deep the braces are before the current token. -/
def modifierRound (state : Modifiers × Int) :
    Reading (Round (Modifiers × Int) (Modifiers × Int)) := do
  let t ← current
  if t.kind = .lbrace then
    return .done state
  else if t.kind = .symbol then
    let m ← settle (state.1.add t)
    let depth ← braceDepth
    let _ ← next
    return .again (m, depth)
  else
    unexpected "script type, flag or `\x7b`" t

theorem modifierRound_progresses : Progresses modifierRound := by
  intro m s m' t h
  obtain ⟨_, _, hc, h⟩ := bind_eq_ok.1 h
  cases hc
  split at h
  · cases h
  · split at h
    next hsym =>
      obtain ⟨_, _, ha, h⟩ := bind_eq_ok.1 h
      obtain ⟨_, _, hd, h⟩ := bind_eq_ok.1 h
      cases hd
      obtain ⟨_, _, hn, h⟩ := bind_eq_ok.1 h
      cases hn
      cases h
      unfold settle at ha
      split at ha <;> cases ha
      exact ⟨.refl _, Or.inl (by rw [hsym]; decide)⟩
    · cases h

theorem within_modifierRound (state : Modifiers × Int) : (modifierRound state).Within :=
  within_current.bind fun _ => by
    split
    · exact within_pure _
    · split
      · exact (within_settle _).bind fun _ => within_braceDepth.bind fun _ =>
          within_next.bind fun _ => within_pure _
      · exact (consumes_unexpected _ _).within

/-- Reads the modifiers of a script from the current token on, up to the brace that opens the
body.  The depth is that of the braces before the current token. -/
def modifiers (depth : Int) : Reading (Modifiers × Int) :=
  loop modifierRound modifierRound_progresses (.empty, depth)

theorem within_modifiers (depth : Int) : (modifiers depth).Within :=
  within_loop _ within_modifierRound _

/-- Whether a token can be the number or name of a script. -/
def isScriptId (t : Token) : Bool :=
  !t.isUnclosedString && (t.kind == .number || t.kind == .string || t.kind == .symbol)

/-- Reads the parameters of a script, if the token that follows is an opening parenthesis, up
to the token after them, and tells how deep the braces are before that token. -/
def scriptParameters : Reading (List ScriptParameter × Int) := do
  let depth ← braceDepth
  if (← next).kind = .lparen then
    let ps ← parameters scriptParameter within_scriptParameter
    let depth ← braceDepth
    let _ ← next
    return (ps, depth)
  else
    return ([], depth)

theorem within_scriptParameters : scriptParameters.Within :=
  within_braceDepth.bind fun _ => within_next.bind fun _ => by
    split
    · exact (within_parameters _).bind fun _ => within_braceDepth.bind fun _ =>
        within_next.bind fun _ => within_pure _
    · exact within_pure _

/-- The script with a given number or name, parameters and modifiers. -/
def Modifiers.script (m : Modifiers) (id : Token) (ps : List ScriptParameter) : ScriptDecl where
  identifier := id.text
  isQuoted := id.kind == .string
  activator := m.activator.map typeText
  isClientside := m.clientside.isSome
  isNet := m.net.isSome
  parameters := ps

/-- Reads a script after its number or name. -/
def scriptTail (id : Token) : Reading Declaration := do
  let (ps, depth) ← scriptParameters
  let (m, depth) ← modifiers depth
  let opening ← current
  skipTo depth "script" opening.span
  return .script (m.script id ps)

theorem within_scriptTail (id : Token) : (scriptTail id).Within :=
  within_scriptParameters.bind fun _ => (within_modifiers _).bind fun _ =>
    within_current.bind fun _ => (within_skipTo _ _ _).bind fun _ => within_pure _

/-- Reads a script, if one is declared here. -/
def scriptDeclaration : Reading (Option Declaration) := do
  if (← current).kind = .keyword .scriptWord then
    let id ← next
    if isScriptId id then
      some <$> scriptTail id
    else
      unexpected "script number or name" id
  else
    return none

theorem within_scriptDeclaration : scriptDeclaration.Within :=
  within_current.bind fun _ => by
    split
    · refine within_next.bind fun id => ?_
      split
      · exact (within_scriptTail id).map _
      · exact (consumes_unexpected _ _).within
    · exact within_pure _

end AcsOutline.Grammar
