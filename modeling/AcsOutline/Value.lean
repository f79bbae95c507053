import AcsOutline.Token

/-!
# Values

The right-hand sides of defines, enum members and variables are kept unevaluated, as a list of
pieces: single tokens, and groups for what stands between a pair of parentheses.  `tokens`
lists the texts that a value is written with, and `text` joins them into one line.
-/

namespace AcsOutline

/-- A part of a value. -/
inductive Piece where
  /-- One token; the text of a string is without its quotes. -/
  | leaf (kind : TokenKind) (text : String)
  /-- What stands between a pair of parentheses. -/
  | group (pieces : List Piece)
deriving Inhabited

namespace Piece

mutual

/-- Whether two pieces are equal. -/
def decEq : (p q : Piece) → Decidable (p = q)
  | leaf k s, leaf l t => decidable_of_iff (k = l ∧ s = t) (by simp)
  | leaf _ _, group _ => isFalse (by simp)
  | group _, leaf _ _ => isFalse (by simp)
  | group ps, group qs =>
    match decEqAll ps qs with
    | isTrue h => isTrue (by rw [h])
    | isFalse h => isFalse (by simpa using h)

/-- Whether two lists of pieces are equal. -/
def decEqAll : (ps qs : List Piece) → Decidable (ps = qs)
  | [], [] => isTrue rfl
  | [], _ :: _ => isFalse (by simp)
  | _ :: _, [] => isFalse (by simp)
  | p :: ps, q :: qs =>
    match decEq p q, decEqAll ps qs with
    | isTrue h, isTrue h' => isTrue (by rw [h, h'])
    | isFalse h, _ => isFalse (by simp [h])
    | _, isFalse h => isFalse (by simp [h])

end

instance : DecidableEq Piece := decEq

mutual

/-- The texts of the tokens that a piece is written with, before those of what follows it:
strings have their quotes and groups their parentheses. -/
def tokensBefore : Piece → List String → List String
  | leaf kind text, rest => kind.literal text :: rest
  | group ps, rest => "(" :: tokensAllBefore ps (")" :: rest)

/-- The texts of the tokens that a list of pieces is written with, before those of what follows
it. -/
def tokensAllBefore : List Piece → List String → List String
  | [], rest => rest
  | p :: ps, rest => p.tokensBefore (tokensAllBefore ps rest)

end

/-- The texts of the tokens that a piece is written with. -/
def tokens (p : Piece) : List String :=
  p.tokensBefore []

/-- The texts of the tokens that a list of pieces is written with. -/
def tokensAll (ps : List Piece) : List String :=
  tokensAllBefore ps []

mutual

/-- What follows a piece does not change the tokens of the piece. -/
theorem tokensBefore_eq (p : Piece) (rest : List String) :
    p.tokensBefore rest = p.tokens ++ rest := by
  cases p with
  | leaf kind text => rfl
  | group ps =>
    simp only [tokens, tokensBefore, tokensAllBefore_eq ps (")" :: rest),
      tokensAllBefore_eq ps [")"], List.cons_append, List.append_assoc, List.nil_append]

theorem tokensAllBefore_eq (ps : List Piece) (rest : List String) :
    tokensAllBefore ps rest = tokensAll ps ++ rest := by
  cases ps with
  | nil => rfl
  | cons p ps =>
    simp only [tokensAll, tokensAllBefore, tokensBefore_eq p, tokensAllBefore_eq ps rest,
      List.append_assoc]

end

@[simp]
theorem tokens_leaf (kind : TokenKind) (text : String) :
    (leaf kind text).tokens = [kind.literal text] := by
  simp only [tokens, tokensBefore]

@[simp]
theorem tokens_group (ps : List Piece) : (group ps).tokens = "(" :: (tokensAll ps ++ [")"]) := by
  simp only [tokens, tokensBefore, tokensAllBefore_eq ps [")"]]

@[simp]
theorem tokensAll_nil : tokensAll [] = [] := by
  simp only [tokensAll, tokensAllBefore]

@[simp]
theorem tokensAll_cons (p : Piece) (ps : List Piece) :
    tokensAll (p :: ps) = p.tokens ++ tokensAll ps := by
  simp only [tokensAll, tokensAllBefore, tokensBefore_eq p]

end Piece

/-- An unevaluated expression. -/
structure Value where
  /-- The parts of the expression, in order. -/
  pieces : List Piece
deriving DecidableEq, Inhabited

namespace Value

/-- The value without any piece. -/
def empty : Value :=
  ⟨[]⟩

/-- Whether a value has no piece. -/
def isEmpty (v : Value) : Bool :=
  v.pieces.isEmpty

/-- The texts of the tokens that a value is written with. -/
def tokens (v : Value) : List String :=
  Piece.tokensAll v.pieces

/-- Token texts with the spaces between them: one between two tokens, but none after an
opening or before a closing parenthesis. -/
def spaced : List String → List String
  | [] => []
  | [t] => [t]
  | t :: u :: ts =>
    if t = "(" ∨ u = ")" then t :: spaced (u :: ts) else t :: " " :: spaced (u :: ts)

/-- A value on one line. -/
def text (v : Value) : String :=
  String.join (spaced v.tokens)

end Value

end AcsOutline
