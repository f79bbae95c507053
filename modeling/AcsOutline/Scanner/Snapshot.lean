import AcsOutline.Scanner

/-!
# Going back

A `Snapshot` is what a scanner needs to go back to a place where it was.  Of the trivia it holds
only how many pieces there were: the record of a scanner is never copied, and to go back
(`Scanner.restore`) is to cut it down to that number.

This is right only where the record has done nothing but grow since.  `Scanner.Follows` is that
relation between a later scanner and an earlier one; every step of a scanner keeps to it
(`follows_next`), and going back over it finds the earlier scanner (`restore_snapshot`).
-/

namespace AcsOutline

/-- What a scanner needs to go back to a place where it was. -/
structure Snapshot where
  rest : List Char
  position : Nat
  line : Nat
  braces : Int
  parens : Int
  mask : SkipMask
  token : Token
  /-- The number of pieces of trivia skipped. -/
  triviaCount : Nat
deriving DecidableEq, Inhabited

namespace Scanner

/-- The place where a scanner is. -/
def snapshot (s : Scanner) : Snapshot :=
  ⟨s.rest, s.position, s.line, s.braces, s.parens, s.mask, s.token, s.triviaCount⟩

/-- A scanner that goes back to a place, with its trivia cut down to the number that there was
then. -/
def restore (s : Scanner) (p : Snapshot) : Scanner where
  source := s.source
  rest := p.rest
  position := p.position
  line := p.line
  braces := p.braces
  parens := p.parens
  mask := p.mask
  token := p.token
  skipped := s.skipped.drop (s.triviaCount - p.triviaCount)

/-- `t` has gone on from `s`: it walks over the same source, and to the trivia of `s` it has at
most added more. -/
structure Follows (t s : Scanner) : Prop where
  source_eq : t.source = s.source
  /-- The trivia skipped later stand before the earlier ones, which are still there. -/
  skipped_suffix : s.skipped <:+ t.skipped

namespace Follows

variable {s t u : Scanner}

theorem refl (s : Scanner) : s.Follows s :=
  ⟨rfl, List.suffix_refl _⟩

theorem trans (hu : u.Follows t) (ht : t.Follows s) : u.Follows s :=
  ⟨hu.source_eq.trans ht.source_eq, ht.skipped_suffix.trans hu.skipped_suffix⟩

end Follows

/-- Going back over what was only added finds the scanner that was there. -/
theorem restore_snapshot {s t : Scanner} (h : t.Follows s) : t.restore s.snapshot = s := by
  obtain ⟨hsource, later, hskipped⟩ := h
  -- what is cut off is exactly what was added
  have hdrop : t.skipped.drop (t.triviaCount - s.triviaCount) = s.skipped := by
    have hcount : t.triviaCount - s.triviaCount = later.length := by
      simp only [triviaCount, ← hskipped, List.length_append]
      omega
    rw [hcount, ← hskipped, List.drop_left]
  cases s
  simp_all [restore, snapshot]

/-! ## Steps of a scanner -/

theorem follows_withMask (s : Scanner) (mask : SkipMask) : (s.withMask mask).Follows s :=
  ⟨rfl, List.suffix_refl _⟩

theorem follows_skip (s : Scanner) (kind : TriviaKind) (spelling rest : List Char) :
    (s.skip kind spelling rest).Follows s :=
  ⟨rfl, List.suffix_cons _ _⟩

theorem follows_skipTrivia (s : Scanner) : s.skipTrivia.Follows s := by
  fun_induction skipTrivia s with
  | case1 => exact .refl _
  | case2 s kind spelling rest _ ih => exact ih.trans (follows_skip s kind spelling rest)

theorem follows_readToken (s : Scanner) : s.readToken.Follows s :=
  ⟨rfl, List.suffix_refl _⟩

/-- To read a token is to go on. -/
theorem follows_next (s : Scanner) : s.next.Follows s :=
  (follows_readToken s.skipTrivia).trans (follows_skipTrivia s)

/-! ## Reading tokens -/

/-- `t` is reached from `s` by reading tokens, where for a part of the way line breaks may be
tokens. -/
inductive Reads : Scanner → Scanner → Prop where
  | refl (s : Scanner) : Reads s s
  | next {s t : Scanner} : Reads s t → Reads s t.next
  | breaks {s t u : Scanner} : Reads s t → Reads (t.withMask { t.mask with newlines := false }) u →
    Reads s (u.withMask t.mask)

/-- `t` is reached from `s`, which is not at the end of input, by reading at least one token. -/
structure Advances (s t : Scanner) : Prop where
  reads_next : s.next.Reads t
  ne_eof : s.token.kind ≠ .eof ∨ s.next.token.kind ≠ .eof

namespace Reads

variable {s t u : Scanner}

theorem trans (h : s.Reads t) (h' : t.Reads u) : s.Reads u := by
  induction h' with
  | refl t => exact h
  | next _ ih => exact (ih h).next
  | breaks _ h' ih _ => exact (ih h).breaks h'

theorem follows (h : s.Reads t) : t.Follows s := by
  induction h with
  | refl s => exact .refl s
  | next _ ih => exact (follows_next _).trans ih
  | breaks _ _ ih ih' =>
    exact (follows_withMask _ _).trans (ih'.trans ((follows_withMask _ _).trans ih))

theorem remaining_le (h : s.Reads t) : t.remaining ≤ s.remaining := by
  induction h with
  | refl s => exact Nat.le_refl _
  | next _ ih => exact Nat.le_trans (remaining_next_le _) ih
  | breaks _ _ ih ih' => exact Nat.le_trans ih' ih

end Reads

namespace Advances

variable {s t u : Scanner}

theorem reads (h : s.Advances t) : s.Reads t :=
  (Reads.refl s).next.trans h.reads_next

theorem trans (h : s.Advances t) (h' : t.Reads u) : s.Advances u :=
  ⟨h.reads_next.trans h', h.ne_eof⟩

/-- To read a token, and not at the end of input, leaves less to read. -/
theorem remaining_lt (h : s.Advances t) : t.remaining < s.remaining :=
  Nat.lt_of_le_of_lt h.reads_next.remaining_le (remaining_next_lt h.ne_eof)

end Advances

end Scanner

end AcsOutline
