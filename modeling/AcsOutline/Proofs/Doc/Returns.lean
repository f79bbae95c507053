import AcsOutline.Doc.Comment
import AcsOutline.Proofs.Scanner.Returns
import AcsOutline.Proofs.Text.Split
import Mathlib.Data.List.Forall2

/-!
# Documentation with returns

A documentation comment says the same where its lines end with a return and a line feed: the lines
are cut at the feeds, and a return at the end of one is a blank character
(`Doc.toOption_ofComment_withReturns`).
-/

namespace AcsOutline

namespace Doc

open Text

/-- A line that may have a return at its end. -/
def LineEnd (line line' : List Char) : Prop :=
  line' = line ∨ line' = line ++ ['\r']

theorem undecorate_eq_of_lineEnd {line line' : List Char} (h : LineEnd line line') :
    undecorate line' = undecorate line := by
  rcases h with rfl | rfl
  · rfl
  have hblank : isBlank '\r' = true := by decide
  unfold undecorate trimEnd
  rw [List.dropWhile_append]
  split
  next hempty =>
    have hnil := List.isEmpty_iff.1 hempty
    rw [hnil]
    rfl
  next =>
    rw [List.reverse_append]
    exact congrArg List.reverse (List.dropWhile_cons_of_pos hblank)

/-- Lines stay the same but for returns where something is put before the first one. -/
theorem forall₂_modifyHead {lines lines' : List (List Char)}
    (h : List.Forall₂ LineEnd lines lines') (before : List Char) :
    List.Forall₂ LineEnd (lines.modifyHead (before ++ ·)) (lines'.modifyHead (before ++ ·)) := by
  cases h with
  | nil => exact .nil
  | cons hline hlines =>
    refine .cons ?_ hlines
    rcases hline with rfl | rfl
    · exact .inl rfl
    · exact .inr (List.append_assoc _ _ _).symm

/-- The lines are the same, but for the returns. -/
theorem forall₂_lineEnd (cs : List Char) :
    List.Forall₂ LineEnd (cs.splitOn '\n') ((withReturns cs).splitOn '\n') := by
  induction cs with
  | nil => exact .cons (.inl rfl) .nil
  | cons c cs ih =>
    by_cases hc : c = '\n'
    · subst hc
      rw [withReturns_feed, splitOn_sep, splitOn_cons (by decide), splitOn_sep]
      exact .cons (.inr rfl) ih
    · rw [withReturns_cons hc, splitOn_cons hc, splitOn_cons hc]
      exact forall₂_modifyHead ih [c]

/-- What is said on the lines does not depend on the returns at their ends. -/
theorem map_undecorate_eq {lines lines' : List (List Char)}
    (h : List.Forall₂ LineEnd lines lines') : lines'.map undecorate = lines.map undecorate := by
  induction h with
  | nil => rfl
  | cons hline _ ih => rw [List.map_cons, List.map_cons, undecorate_eq_of_lineEnd hline, ih]

/-- What is read of a line does not depend on its decoration. -/
theorem toOption_readLine (comment comment' : Span) (p : Progress) {line line' : List Char}
    (h : undecorate line' = undecorate line) :
    (p.readLine comment' line').toOption = (p.readLine comment line).toOption := by
  unfold Progress.readLine
  rw [h]
  split
  · dsimp only
    split <;> rfl
  · rfl

theorem toOption_foldlM_readLine (comment comment' : Span) {lines lines' : List (List Char)}
    (h : List.Forall₂ LineEnd lines lines') (p : Progress) :
    (lines'.foldlM (Progress.readLine comment') p).toOption =
      (lines.foldlM (Progress.readLine comment) p).toOption := by
  induction h generalizing p with
  | nil => rfl
  | @cons line line' lines lines' hline hlines ih =>
    have hread := toOption_readLine comment comment' p (undecorate_eq_of_lineEnd hline)
    rw [List.foldlM_cons, List.foldlM_cons]
    generalize p.readLine comment line = result at hread ⊢
    generalize p.readLine comment' line' = result' at hread ⊢
    rcases result with fault | q <;> rcases result' with fault' | q'
    · rfl
    · cases hread
    · cases hread
    · cases hread
      exact ih q

/-- **Documentation says the same with returns.** -/
theorem toOption_ofComment_withReturns (text : List Char) (comment comment' : Span) :
    (ofComment (String.ofList (withReturns text)) comment').toOption =
      (ofComment (String.ofList text) comment).toOption := by
  have hlines : ∀ body : List Char,
      ((((withReturns body).splitOn '\n').foldlM (Progress.readLine comment') .start).map
          Progress.close).toOption =
        (((body.splitOn '\n').foldlM (Progress.readLine comment) .start).map
          Progress.close).toOption := by
    intro body
    have hread := toOption_foldlM_readLine comment comment' (forall₂_lineEnd body) .start
    generalize List.foldlM (Progress.readLine comment) _ (body.splitOn '\n') = result at hread ⊢
    generalize List.foldlM (Progress.readLine comment') _ ((withReturns body).splitOn '\n') = result' at hread ⊢
    rcases result with fault | q <;> rcases result' with fault' | q'
    · rfl
    · cases hread
    · cases hread
    · cases hread
      rfl
  unfold ofComment
  dsimp only
  rw [String.toList_ofList, String.toList_ofList]
  rcases text with _ | ⟨c, cs⟩
  · exact hlines []
  by_cases hstar : c = '*'
  · subst hstar
    rw [withReturns_cons (by decide)]
    exact hlines cs
  by_cases hc : c = '\n'
  · subst hc
    exact hlines ('\n' :: cs)
  · have hwhole := hlines (c :: cs)
    rw [withReturns_cons hc] at hwhole ⊢
    split
    next h => exact absurd (List.cons.inj h).1 hstar
    next =>
      split
      next h => exact absurd (List.cons.inj h).1 hstar
      next => exact hwhole

theorem isComment_withReturns (text : List Char) :
    isComment (String.ofList (withReturns text)) = isComment (String.ofList text) := by
  have hhead := head?_withReturns (c := '*') (by decide) (by decide) text
  rw [isComment, isComment, String.toList_ofList, String.toList_ofList, Bool.eq_iff_iff,
    beq_iff_eq, beq_iff_eq, hhead]

end Doc

end AcsOutline
