import AcsOutline.Proofs.Scanner.Masks

/-!
# Tokens that are left

`Scanner.left` counts the tokens that are left to read, the end of input among them, where every
sort of trivia is skipped.  To read on never leaves more of them (`Scanner.Reads.left_le`), not even
where line breaks are tokens for a while: what is a line break then is trivia otherwise.
-/

namespace AcsOutline

/-- A mask that skips everything, but perhaps not the line breaks. -/
def SkipMask.IsPlain (m : SkipMask) : Prop :=
  m = { SkipMask.all with newlines := m.newlines }

theorem SkipMask.IsPlain.spaced_eq {m : SkipMask} (h : m.IsPlain) : m.spaced = .all := by
  rw [h]
  rfl

namespace Scanner

variable {s t : Scanner}

/-- The tokens that are left to read, the end of input among them, where all trivia is skipped. -/
def left (s : Scanner) : Nat :=
  (s.withMask .all).readAll.1.length

theorem length_readAll (s : Scanner) :
    s.readAll.1.length = if s.next.token.kind = .eof then 1 else s.next.readAll.1.length + 1 := by
  rw [readAll_eq]
  split <;> rfl

theorem left_pos (s : Scanner) : 0 < s.left := by
  rw [left, length_readAll]
  split
  · exact Nat.one_pos
  · exact Nat.succ_pos _

/-- Two scanners at the same place skip to the same place. -/
theorem rest_skipTrivia_congr (hrest : s.rest = t.rest) (hmask : s.mask = t.mask) :
    s.skipTrivia.rest = t.skipTrivia.rest := by
  fun_induction skipTrivia s generalizing t with
  | case1 s h =>
    rw [skipTrivia_of_none (by rw [← hrest, ← hmask, h]), hrest]
  | case2 s kind spelling rest h ih =>
    have hskip : t.skipTrivia = (t.skip kind spelling rest).skipTrivia :=
      skipTrivia_of_some (by rw [← hrest, ← hmask, h])
    rw [hskip]
    exact ih rfl hmask

theorem length_readAll_congr {s t : Scanner} (hrest : s.rest = t.rest) (hmask : s.mask = t.mask) :
    s.readAll.1.length = t.readAll.1.length := by
  have hskip := rest_skipTrivia_congr hrest hmask
  have hkind : s.next.token.kind = t.next.token.kind :=
    congrArg (fun cs => (Lexeme.read cs).1.kind) hskip
  rw [length_readAll, length_readAll t, hkind]
  split
  · rfl
  next hne =>
    have hlt : s.next.rest.length < s.rest.length :=
      rest_next_length_lt (by rw [hkind]; exact hne)
    have hrest' : s.next.rest = t.next.rest := congrArg (fun cs => (Lexeme.read cs).2) hskip
    have hmask' : s.next.mask = t.next.mask := by rw [mask_next, mask_next, hmask]
    exact congrArg (· + 1) (length_readAll_congr hrest' hmask')
termination_by s.rest.length

/-- How many tokens are left depends on the rest of the source alone. -/
theorem left_congr (hrest : s.rest = t.rest) : s.left = t.left :=
  length_readAll_congr hrest rfl

/-- A token that is read where all trivia is skipped is one of those that were left. -/
theorem left_next (hmask : s.mask = .all) (h : s.next.token.kind ≠ .eof) :
    s.next.left + 1 = s.left := by
  have hs : s.withMask .all = s := by rw [← hmask]; rfl
  have hnext : s.next.withMask .all = s.next := by rw [← hmask, ← s.mask_next]; rfl
  rw [left, left, hs, hnext, length_readAll s, if_neg h]

/-- Trivia holds none of the tokens that are left. -/
theorem left_skipTrivia (s : Scanner) : s.skipTrivia.left = s.left := by
  fun_induction skipTrivia s with
  | case1 => rfl
  | case2 s kind spelling rest h ih =>
    rw [ih, left, left, length_readAll, length_readAll (s.withMask .all)]
    have hskip : (s.withMask .all).skipTrivia =
        ((s.skip kind spelling rest).withMask .all).skipTrivia :=
      skipTrivia_of_some (Trivia.read?_of_within s.mask.within_all h)
    rw [next, next, hskip]

/-- To read a token never leaves more of them. -/
theorem left_next_le (h : s.mask.IsPlain) : s.next.left ≤ s.left := by
  rw [← s.left_skipTrivia]
  have hnone := s.read?_skipTrivia
  have hrest : s.next.rest = (Lexeme.read s.skipTrivia.rest).2 := rfl
  generalize s.skipTrivia = u at hnone hrest ⊢
  have hu : u.left = (u.withMask .all).left := left_congr rfl
  rcases htrivia : Trivia.read? .all u.rest with _ | ⟨kind, spelling, rest⟩
  · -- the token is one of those that are left, or the end of input
    have hskip : (u.withMask .all).skipTrivia = u.withMask .all := skipTrivia_of_none htrivia
    have hsame : s.next.left = (u.withMask .all).next.left :=
      left_congr (by rw [hrest, next, hskip]; rfl)
    rw [hu, hsame]
    by_cases heof : (u.withMask .all).next.token.kind = .eof
    · rw [next, hskip] at heof ⊢
      exact Nat.le_of_eq (left_congr (rest_readToken_of_eof heof))
    · exact Nat.le_of_lt (Nat.lt_of_succ_le (Nat.le_of_eq (left_next rfl heof)))
  · -- the token is a line break
    rw [← h.spaced_eq] at htrivia
    obtain ⟨k, -, hlexeme⟩ := Trivia.lexeme_read_of_spaced hnone htrivia
    have hbreak : (Lexeme.read u.rest).2 = rest := congrArg Prod.snd hlexeme
    rw [h.spaced_eq] at htrivia
    have hskip : (u.withMask .all).skipTrivia =
        ((u.withMask .all).skip kind spelling rest).skipTrivia := skipTrivia_of_some htrivia
    rw [hu, ← (u.withMask .all).left_skipTrivia, hskip, left_skipTrivia]
    exact Nat.le_of_eq (left_congr (hrest.trans hbreak))

theorem Reads.mask_eq (h : s.Reads t) : t.mask = s.mask := by
  induction h with
  | refl s => rfl
  | next _ ih => exact (mask_next _).trans ih
  | breaks _ _ ih _ => exact ih

/-- **To read on never leaves more tokens.** -/
theorem Reads.left_le (h : s.Reads t) (hs : s.mask.IsPlain) : t.left ≤ s.left := by
  induction h with
  | refl s => exact Nat.le_refl _
  | next h ih => exact Nat.le_trans (left_next_le (by rw [h.mask_eq]; exact hs)) (ih hs)
  | @breaks s t u h _ ih ih' =>
    have ht : t.mask.IsPlain := by rw [h.mask_eq]; exact hs
    have hbreaks : ({ t.mask with newlines := false } : SkipMask).IsPlain := by
      rw [SkipMask.IsPlain, ht]
    exact Nat.le_trans (ih' hbreaks) (ih hs)

/-- The tokens of a source, the end of input left out. -/
def tokensOf (source : String) : List Token :=
  (ofString source).readAll.1.dropLast

theorem left_ofString (source : String) : (ofString source).left = (tokensOf source).length + 1 := by
  have hpos : 0 < (ofString source).readAll.1.length := (ofString source).left_pos
  rw [tokensOf, List.length_dropLast]
  exact (Nat.sub_add_cancel hpos).symm

end Scanner

end AcsOutline
