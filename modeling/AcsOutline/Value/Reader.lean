import AcsOutline.Scanner.Reading
import AcsOutline.Value

/-!
# Reading values

A value is read from the current token up to the first comma, semicolon, closing brace, line
break that is not skipped, or the end of input; that token stays the current one.  Parentheses
become groups.  A closing parenthesis without an opening one is passed over, and groups that
are still open at the end are closed there.  The one thing that fails is an opening
parenthesis directly before the end of input.
-/

namespace AcsOutline

namespace Value

/-- The groups that are open while a value is read. -/
structure Nest where
  /-- The pieces of the innermost open group, the latest first. -/
  inner : List Piece
  /-- The pieces of the groups around it, from the inside out, the latest first. -/
  outer : List (List Piece)
deriving DecidableEq, Inhabited

namespace Nest

/-- No group is open and nothing is read. -/
def empty : Nest :=
  ⟨[], []⟩

/-- Adds a piece to the innermost group. -/
def push (n : Nest) (p : Piece) : Nest :=
  { n with inner := p :: n.inner }

/-- Opens a group. -/
def openGroup (n : Nest) : Nest :=
  ⟨[], n.inner :: n.outer⟩

/-- Closes the innermost group; where none is open nothing happens. -/
def closeGroup (n : Nest) : Nest :=
  match n.outer with
  | [] => n
  | around :: outer => ⟨.group n.inner.reverse :: around, outer⟩

/-- The pieces that `inner` makes after every group around it is closed. -/
def closeAll (inner : List Piece) : List (List Piece) → List Piece
  | [] => inner.reverse
  | around :: outer => closeAll (.group inner.reverse :: around) outer

/-- The pieces read, after closing every open group. -/
def finish (n : Nest) : List Piece :=
  closeAll n.inner n.outer

end Nest

/-- Whether a token ends a value. -/
def endsValue : TokenKind → Bool
  | .eof | .comma | .semicolon | .rbrace | .newline => true
  | _ => false

open Reading in
/-- Reads the current token into the open groups, or ends the value. -/
def readPiece (n : Nest) : Reading (Round Nest Value) := do
  let t ← current
  if endsValue t.kind then
    return .done ⟨n.finish⟩
  else if t.kind = .lparen then
    let _ ← advance
    return .again n.openGroup
  else if t.kind = .rparen then
    let _ ← next
    return .again n.closeGroup
  else
    let _ ← next
    return .again (n.push (.leaf t.kind t.text))

theorem readPiece_progresses : Reading.Progresses readPiece := by
  intro n s n' t h
  obtain ⟨_, u, hcur, h⟩ := Reading.bind_eq_ok.1 h
  cases hcur
  split at h
  · cases h
  next hends =>
    have hne : s.token.kind ≠ .eof := fun e => hends (by rw [e]; rfl)
    have hadvances : s.Advances s.next := ⟨.refl _, Or.inl hne⟩
    split at h
    · obtain ⟨_, u, hadv, h⟩ := Reading.bind_eq_ok.1 h
      cases h
      exact Reading.consumes_advance hadv
    · split at h
      all_goals
        obtain ⟨_, u, hnext, h⟩ := Reading.bind_eq_ok.1 h
        cases hnext
        cases h
        exact hadvances

/-- Reads a value that begins with the current token. -/
def read : Reading Value :=
  Reading.loop readPiece readPiece_progresses .empty

theorem within_readPiece (n : Nest) : (readPiece n).Within :=
  Reading.within_current.bind fun _ => by
    split
    · exact Reading.within_pure _
    · split
      · exact Reading.consumes_advance.within.bind fun _ => Reading.within_pure _
      · split <;> exact Reading.within_next.bind fun _ => Reading.within_pure _

/-- A value takes no more than there is. -/
theorem within_read : read.Within :=
  Reading.within_loop _ within_readPiece _

theorem forward_readPiece (n : Nest) : (readPiece n).Forward :=
  Reading.forward_current.bind fun _ => by
    split
    · exact Reading.forward_pure _
    · split
      · exact Reading.forward_advance.bind fun _ => Reading.forward_pure _
      · split <;> exact Reading.forward_next.bind fun _ => Reading.forward_pure _

/-- A value is read forward. -/
theorem forward_read : read.Forward :=
  Reading.forward_loop _ forward_readPiece _

end Value

end AcsOutline
