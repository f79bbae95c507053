import AcsOutline.Settings
import AcsOutline.Value

/-!
# Leaving out casts

A cast is a group whose only piece is a token that names a cast type of the dialect, as in
`(fixed) 2`.  `Value.stripCasts` leaves out every cast, in nested groups too.
-/

namespace AcsOutline

namespace Piece

/-- Whether the pieces of a group make it a cast. -/
def isCast (d : Dialect) : List Piece → Bool
  | [leaf _ text] => d.isCastType text
  | _ => false

mutual

/-- A piece without the casts in it; nothing is left of a piece that is a cast. -/
def stripCasts (d : Dialect) : Piece → List Piece
  | leaf kind text => [leaf kind text]
  | group ps => if isCast d ps then [] else [group (stripCastsAll d ps)]

/-- A list of pieces without the casts in it. -/
def stripCastsAll (d : Dialect) : List Piece → List Piece
  | [] => []
  | p :: ps => stripCasts d p ++ stripCastsAll d ps

end

end Piece

namespace Value

/-- A value without its casts. -/
def stripCasts (d : Dialect) (v : Value) : Value :=
  ⟨Piece.stripCastsAll d v.pieces⟩

end Value

end AcsOutline
