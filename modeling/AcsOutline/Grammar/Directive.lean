import AcsOutline.Declaration
import AcsOutline.Grammar.Basic
import AcsOutline.Value.Reader

/-!
# Directives

Declarations that start with `#`: `#import`, `#library`, `#include`, `#define` and
`#libdefine`.  Each reading declines, with nothing taken, unless its own word follows the `#`.
-/

namespace AcsOutline.Grammar

open Reading

/-- Takes `#` and the word after it, if that is the given word. -/
def directiveWord (word : String) : Reading (Option Unit) :=
  tentatively do
    if (← current).kind = .hash then
      if (← next).isWord word then
        return some ()
      else
        return none
    else
      return none

theorem within_directiveWord (word : String) : (directiveWord word).Within :=
  .tentatively <| within_current.bind fun _ => by
    split
    · refine within_next.bind fun _ => ?_
      split <;> exact within_pure _
    · exact within_pure _

/-- Reads a directive: its word and then its body. -/
def directive (word : String) (body : Reading Declaration) : Reading (Option Declaration) := do
  match ← directiveWord word with
  | some () => some <$> body
  | none => return none

theorem within_directive (word : String) {body : Reading Declaration} (h : body.Within) :
    (directive word body).Within :=
  (within_directiveWord word).bind fun _ => by
    split
    · exact h.map _
    · exact within_pure _

/-- Reads a quoted text. -/
def quoted (expected : String) : Reading String :=
  Token.text <$> expect .string expected

theorem within_quoted (expected : String) : (quoted expected).Within :=
  (consumes_expect (by decide) expected).within.map _

/-- Reads `#import "path"`; the path is in lower case. -/
def importDirective : Reading (Option Declaration) :=
  directive "import" ((.importFile <| Text.lowercase ·) <$> quoted "quoted import path")

/-- Reads `#library "NAME"`; the name is in upper case. -/
def libraryDirective : Reading (Option Declaration) :=
  directive "library" ((.library <| Text.uppercase ·) <$> quoted "quoted library name")

/-- Reads `#include "path"`; the path is kept as written. -/
def includeDirective : Reading (Option Declaration) :=
  directive "include" (.includeFile <$> quoted "quoted include path")

/-- Runs a reading for which line breaks are tokens. -/
def withLineBreaks {α : Type} (p : Reading α) : Reading α := fun s =>
  match p (s.withMask { s.mask with newlines := false }) with
  | .ok a t => .ok a (t.withMask s.mask)
  | .error fault t => .error fault (t.withMask s.mask)

theorem Within.withLineBreaks {α : Type} {p : Reading α} (h : p.Within) :
    (withLineBreaks p).Within := by
  intro s a t e
  unfold Grammar.withLineBreaks at e
  split at e
  next h' =>
    cases e
    exact (Scanner.Reads.refl s).breaks (h h')
  next => cases e

/-- Reads what follows a define word: a key, which is in upper case, and a value up to the end
of the line. -/
def defineBody : Reading DefineDecl := do
  let key ← expect .symbol "define name"
  let value ← withLineBreaks (do let _ ← next; Value.read)
  return ⟨Text.uppercase key.text, value⟩

theorem within_defineBody : defineBody.Within :=
  (consumes_expect (by decide) _).within.bind fun _ =>
    (Within.withLineBreaks (within_next.bind fun _ => Value.within_read)).bind fun _ =>
      within_pure _

/-- Reads `#define KEY value`. -/
def defineDirective : Reading (Option Declaration) :=
  directive "define" (.define <$> defineBody)

/-- Reads `#libdefine KEY value`. -/
def libDefineDirective : Reading (Option Declaration) :=
  directive "libdefine" (.libDefine <$> defineBody)

theorem within_importDirective : importDirective.Within :=
  within_directive _ ((within_quoted _).map _)

theorem within_libraryDirective : libraryDirective.Within :=
  within_directive _ ((within_quoted _).map _)

theorem within_includeDirective : includeDirective.Within :=
  within_directive _ ((within_quoted _).map _)

theorem within_defineDirective : defineDirective.Within :=
  within_directive _ (within_defineBody.map _)

theorem within_libDefineDirective : libDefineDirective.Within :=
  within_directive _ (within_defineBody.map _)

end AcsOutline.Grammar
