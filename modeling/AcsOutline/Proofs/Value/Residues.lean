import AcsOutline.Value.Casts

/-!
# Casts that are left over

Casts are found in a value as it is written, and not in what is left of it.  A group that is no cast
becomes one when the casts in it are left out and a single leaf remains that is spelled like a cast
type, as in `((int) raw)` (`Piece.leavesCast`).  Those groups, and no others, are the casts of a
value without its casts (`Value.hasCast_stripCasts`), and they are what a second pass leaves out
(`Value.stripCasts_eq_self_iff`).
-/

namespace AcsOutline

namespace Piece

variable {d : Dialect} {P : List Piece → Bool}

/-- Whether a piece is a cast. -/
def isCastGroup (d : Dialect) : Piece → Bool
  | leaf _ _ => false
  | group ps => isCast d ps

/-- Whether the pieces of a group leave a cast: they are none, but those of them that are no casts
are a single leaf that is spelled like a cast type. -/
def leavesCast (d : Dialect) (ps : List Piece) : Bool :=
  !isCast d ps && isCast d (ps.filter (!isCastGroup d ·))

mutual

/-- Whether there is a group in a piece, at any depth, with pieces that `P` holds of. -/
def hasGroup (P : List Piece → Bool) : Piece → Bool
  | leaf _ _ => false
  | group ps => P ps || hasGroupAll P ps

/-- Whether there is a group in a list of pieces, at any depth, with pieces that `P` holds of. -/
def hasGroupAll (P : List Piece → Bool) : List Piece → Bool
  | [] => false
  | p :: ps => hasGroup P p || hasGroupAll P ps

end

/-! ## What is left -/

/-- What is left of a piece that is no cast. -/
def stripInner (d : Dialect) : Piece → Piece
  | leaf kind text => leaf kind text
  | group ps => group (stripCastsAll d ps)

theorem stripCasts_of_cast {p : Piece} (h : isCastGroup d p = true) : stripCasts d p = [] := by
  cases p with
  | leaf kind text => cases h
  | group ps => exact if_pos h

theorem stripCasts_of_not_cast {p : Piece} (h : isCastGroup d p = false) :
    stripCasts d p = [stripInner d p] := by
  cases p with
  | leaf kind text => rfl
  | group ps => exact if_neg (Bool.eq_false_iff.1 h)

/-- The pieces that are no casts are left, each without the casts in it. -/
theorem stripCastsAll_eq (d : Dialect) (ps : List Piece) :
    stripCastsAll d ps = (ps.filter (!isCastGroup d ·)).map (stripInner d) := by
  induction ps with
  | nil => rfl
  | cons p ps ih =>
    rw [stripCastsAll, ih]
    cases h : isCastGroup d p with
    | true =>
      rw [stripCasts_of_cast h, List.filter_cons_of_neg (by simp [h])]
      rfl
    | false =>
      rw [stripCasts_of_not_cast h, List.filter_cons_of_pos (by simp [h])]
      rfl

/-- What is left of pieces is a cast if they are one without the casts among them. -/
theorem isCast_stripCastsAll (d : Dialect) (ps : List Piece) :
    isCast d (stripCastsAll d ps) = isCast d (ps.filter (!isCastGroup d ·)) := by
  rw [stripCastsAll_eq]
  match ps.filter (!isCastGroup d ·) with
  | [] => rfl
  | [leaf kind text] => rfl
  | [group qs] => rfl
  | p :: _ :: _ => cases p <;> rfl

/-- The pieces of a cast are a leaf, in which there is no group. -/
theorem hasGroupAll_of_cast {ps : List Piece} (h : isCast d ps = true) :
    hasGroupAll P ps = false := by
  unfold isCast at h
  split at h
  · rfl
  · cases h

theorem hasGroupAll_append (P : List Piece → Bool) (ps qs : List Piece) :
    hasGroupAll P (ps ++ qs) = (hasGroupAll P ps || hasGroupAll P qs) := by
  induction ps with
  | nil => rfl
  | cons p ps ih => rw [List.cons_append, hasGroupAll, hasGroupAll, ih, Bool.or_assoc]

mutual

theorem hasGroup_stripCasts (d : Dialect) (p : Piece) :
    hasGroupAll (isCast d) (stripCasts d p) = hasGroup (leavesCast d) p := by
  match p with
  | leaf kind text => rfl
  | group ps =>
    rw [stripCasts, hasGroup, leavesCast]
    by_cases hcast : isCast d ps = true
    · rw [if_pos hcast, hasGroupAll_of_cast hcast, hcast]
      rfl
    · rw [if_neg hcast, hasGroupAll, hasGroup, isCast_stripCastsAll, hasGroupAll_stripCastsAll d ps,
        Bool.eq_false_iff.2 hcast, hasGroupAll, Bool.or_false]
      rfl

theorem hasGroupAll_stripCastsAll (d : Dialect) (ps : List Piece) :
    hasGroupAll (isCast d) (stripCastsAll d ps) = hasGroupAll (leavesCast d) ps := by
  match ps with
  | [] => rfl
  | p :: ps =>
    rw [stripCastsAll, hasGroupAll_append, hasGroup_stripCasts d p, hasGroupAll_stripCastsAll d ps,
      hasGroupAll]

end

/-! ## Pieces without casts -/

theorem length_stripCasts_le (d : Dialect) (p : Piece) : (stripCasts d p).length ≤ 1 := by
  cases h : isCastGroup d p with
  | true => rw [stripCasts_of_cast h]; exact Nat.zero_le 1
  | false => rw [stripCasts_of_not_cast h]; exact Nat.le_refl 1

theorem length_stripCastsAll_le (d : Dialect) (ps : List Piece) :
    (stripCastsAll d ps).length ≤ ps.length := by
  rw [stripCastsAll_eq, List.length_map]
  exact List.length_filter_le _ ps

mutual

/-- A piece stays as it is if there is no cast in it. -/
theorem stripCasts_eq_self_iff (d : Dialect) (p : Piece) :
    stripCasts d p = [p] ↔ hasGroup (isCast d) p = false := by
  match p with
  | leaf kind text => exact iff_of_true rfl rfl
  | group ps =>
    rw [stripCasts, hasGroup]
    by_cases hcast : isCast d ps = true
    · rw [if_pos hcast, hcast]
      exact iff_of_false (by simp) (by simp)
    · rw [if_neg hcast, Bool.eq_false_iff.2 hcast, Bool.false_or, ← stripCastsAll_eq_self_iff d ps]
      simp

theorem stripCastsAll_eq_self_iff (d : Dialect) (ps : List Piece) :
    stripCastsAll d ps = ps ↔ hasGroupAll (isCast d) ps = false := by
  match ps with
  | [] => exact iff_of_true rfl rfl
  | p :: ps =>
    rw [hasGroupAll, Bool.or_eq_false_iff, ← stripCasts_eq_self_iff d p,
      ← stripCastsAll_eq_self_iff d ps, stripCastsAll]
    constructor
    · intro h
      -- no more is left of a piece than one piece, nor of the others than as many
      have hlength := congrArg List.length h
      rw [List.length_append, List.length_cons] at hlength
      have hfirst := length_stripCasts_le d p
      have hrest := length_stripCastsAll_le d ps
      have happend : stripCasts d p ++ stripCastsAll d ps = [p] ++ ps := h
      exact List.append_inj happend (by rw [List.length_singleton]; omega)
    · rintro ⟨hfirst, hrest⟩
      rw [hfirst, hrest]
      rfl

end

end Piece

namespace Value

variable {d : Dialect} {v : Value}

/-- Whether there is a cast in a value, at any depth. -/
def hasCast (d : Dialect) (v : Value) : Bool :=
  Piece.hasGroupAll (Piece.isCast d) v.pieces

/-- Whether there is a group in a value, at any depth, that leaves a cast. -/
def leavesCast (d : Dialect) (v : Value) : Bool :=
  Piece.hasGroupAll (Piece.leavesCast d) v.pieces

/-- **The casts that are left over** are the groups that leave one. -/
theorem hasCast_stripCasts (d : Dialect) (v : Value) :
    (v.stripCasts d).hasCast d = v.leavesCast d :=
  Piece.hasGroupAll_stripCastsAll d v.pieces

/-- A value stays as it is if there is no cast in it. -/
theorem stripCasts_eq_self_iff : v.stripCasts d = v ↔ v.hasCast d = false := by
  obtain ⟨ps⟩ := v
  rw [hasCast, ← Piece.stripCastsAll_eq_self_iff, stripCasts]
  simp

end Value

end AcsOutline
