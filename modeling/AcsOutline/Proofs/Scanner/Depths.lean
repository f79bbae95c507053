import AcsOutline.Proofs.Scanner.Reached
import Mathlib.Data.Nat.Find

/-!
# The depth of braces

The depth of braces goes on by one step for each token, so that it is counted by the braces among
the tokens (`Scanner.braces_ahead`).  A brace is closed by the first token by which one more closing
than opening braces are read after it (`Scanner.ClosesAt`).  That token is a closing brace, it is
the first at which the braces are less deep than they were at the opening one, and so they are as
deep as before it.

At the end of input a scanner stands still (`Scanner.next_next_of_eof`).
-/

namespace AcsOutline

/-- Among some tokens there is one more closing than opening brace. -/
def Token.CloseOne (ts : List Token) : Prop :=
  ts.countP (·.kind = .rbrace) = ts.countP (·.kind = .lbrace) + 1

instance (ts : List Token) : Decidable (Token.CloseOne ts) :=
  inferInstanceAs (Decidable (_ = _))

namespace Scanner

variable {s : Scanner} {m n : Nat}

theorem ahead_next (s : Scanner) (n : Nat) : s.next.ahead n = (s.ahead n).next := by
  induction n generalizing s with
  | zero => rfl
  | succ n ih => exact ih s.next

theorem mask_ahead (s : Scanner) (n : Nat) : (s.ahead n).mask = s.mask := by
  induction n generalizing s with
  | zero => rfl
  | succ n ih => exact (ih s.next).trans s.mask_next

theorem ahead_succ (s : Scanner) (n : Nat) : s.ahead (n + 1) = (s.ahead n).next :=
  s.ahead_next n

theorem ahead_ahead (s : Scanner) (m n : Nat) : (s.ahead m).ahead n = s.ahead (m + n) := by
  induction m generalizing s with
  | zero => simp [ahead]
  | succ m ih =>
    rw [Nat.add_right_comm]
    exact ih s.next

/-! ## The end of input -/

/-- The end of input is read as often as one likes. -/
theorem readToken_readToken_of_eof (h : s.readToken.token.kind = .eof) :
    s.readToken.readToken = s.readToken := by
  have hread : Lexeme.read s.rest = (⟨.eof, []⟩, s.rest) := by
    rcases Lexeme.eq_nil_or_nul_of_eof h with hrest | ⟨after, hrest⟩
    · rw [hrest]
      rfl
    · rw [hrest]
      rfl
  simp [readToken, hread, tokenBreaks, braceStep, parenStep]

/-- At the end of input a scanner stands still. -/
theorem next_next_of_eof (h : s.next.token.kind = .eof) : s.next.next = s.next := by
  show s.next.skipTrivia.readToken = s.next
  rw [skipTrivia_next_of_eof h]
  exact readToken_readToken_of_eof h

theorem ahead_of_eof (h : s.next.token.kind = .eof) (n : Nat) : s.next.ahead n = s.next := by
  induction n with
  | zero => rfl
  | succ n ih => rw [ahead_succ, ih, next_next_of_eof h]

/-- There is one place at the end of input. -/
theorem ahead_eq_of_eof (hm : (s.ahead (m + 1)).token.kind = .eof)
    (hn : (s.ahead (n + 1)).token.kind = .eof) : s.ahead (m + 1) = s.ahead (n + 1) := by
  -- the later of two places is reached from the earlier one, which stands still
  have hlater : ∀ {i j : Nat}, i ≤ j → (s.ahead (i + 1)).token.kind = .eof →
      s.ahead (i + 1) = s.ahead (j + 1) := by
    intro i j hij hi
    obtain ⟨k, rfl⟩ := Nat.exists_eq_add_of_le hij
    rw [ahead_succ] at hi
    rw [Nat.add_right_comm i k 1, ← ahead_ahead s (i + 1) k, ahead_succ, ahead_of_eof hi]
  rcases Nat.le_total m n with h | h
  · exact hlater h hm
  · exact (hlater h hn).symm

/-- The depth of braces changes on, so the input does not end here. -/
theorem kind_ahead_ne_eof {i : Nat} (hi : i < n) (h : (s.ahead n).braces ≠ (s.ahead i).braces) :
    (s.ahead (i + 1)).token.kind ≠ .eof := by
  intro heof
  obtain ⟨k, rfl⟩ := Nat.exists_eq_add_of_lt hi
  rw [ahead_succ] at heof
  apply h
  rw [Nat.add_right_comm i k 1, ← ahead_ahead s (i + 1) k, ahead_succ, ahead_of_eof heof,
    braces_next, heof]
  exact Int.add_zero _

/-! ## Counting braces -/

/-- How deep the braces were before the current token. -/
def bracesBefore (s : Scanner) : Int :=
  s.braces - braceStep s.token.kind

@[simp]
theorem bracesBefore_next (s : Scanner) : s.next.bracesBefore = s.braces := by
  rw [bracesBefore, braces_next]
  omega

theorem braceStep_eq_zero {kind : TokenKind} (hopen : kind ≠ .lbrace) (hclose : kind ≠ .rbrace) :
    braceStep kind = 0 := by
  unfold braceStep
  split
  · exact absurd rfl hopen
  · exact absurd rfl hclose
  · rfl

/-- **The depth of braces is told by the tokens** that were read. -/
theorem braces_ahead (s : Scanner) (n : Nat) :
    (s.ahead n).braces = s.braces + (s.next.run n).countP (·.kind = .lbrace) -
      (s.next.run n).countP (·.kind = .rbrace) := by
  induction n generalizing s with
  | zero => simp [ahead, run]
  | succ n ih =>
    rw [ahead, ih, braces_next, run, List.countP_cons, List.countP_cons]
    by_cases hopen : s.next.token.kind = .lbrace
    · simp [hopen, braceStep]
      omega
    · by_cases hclose : s.next.token.kind = .rbrace
      · simp [hclose, braceStep]
        omega
      · simp [hopen, hclose, braceStep_eq_zero hopen hclose]

/-- Only a closing brace makes the braces less deep. -/
theorem braceStep_neg {kind : TokenKind} (h : braceStep kind < 0) : kind = .rbrace := by
  unfold braceStep at h
  split at h
  · exact absurd h (by decide)
  · rfl
  · exact absurd h (by decide)

theorem neg_one_le_braceStep (kind : TokenKind) : -1 ≤ braceStep kind := by
  unfold braceStep
  split <;> decide

/-! ## Closing braces -/

/-- A brace that is the current token is closed by the token with number `n`, where the current
token has number zero: by that token there is one more closing than opening brace after it, and
not before. -/
structure ClosesAt (s : Scanner) (n : Nat) : Prop where
  closes : Token.CloseOne (s.next.run n)
  first : ∀ m < n, ¬Token.CloseOne (s.next.run m)

theorem closeOne_run_iff : Token.CloseOne (s.next.run n) ↔ (s.ahead n).braces = s.braces - 1 := by
  rw [braces_ahead, Token.CloseOne]
  omega

/-- What is closed at all is closed somewhere first. -/
theorem exists_closesAt (h : ∃ n, Token.CloseOne (s.next.run n)) : ∃ n, s.ClosesAt n :=
  ⟨Nat.find h, Nat.find_spec h, fun _ hm => Nat.find_min h hm⟩

namespace ClosesAt

/-- Up to the closing brace the braces stay as deep as at the opening one. -/
theorem le_braces (h : s.ClosesAt n) (hm : m < n) : s.braces ≤ (s.ahead m).braces := by
  induction m with
  | zero => exact Int.le_refl _
  | succ m ih =>
    have hbefore := ih (by omega)
    have hstep := neg_one_le_braceStep (s.ahead (m + 1)).token.kind
    have hnot : (s.ahead (m + 1)).braces ≠ s.braces - 1 := fun heq =>
      h.first (m + 1) hm (closeOne_run_iff.2 heq)
    rw [ahead_succ] at hstep hnot ⊢
    rw [braces_next] at hnot ⊢
    omega

theorem braces_eq (h : s.ClosesAt n) : (s.ahead n).braces = s.braces - 1 :=
  closeOne_run_iff.1 h.closes

theorem pos (h : s.ClosesAt n) : 0 < n := by
  rcases Nat.eq_zero_or_pos n with rfl | hn
  · have hbraces : s.braces = s.braces - 1 := h.braces_eq
    omega
  · exact hn

/-- What closes a brace is a closing brace. -/
theorem kind_eq (h : s.ClosesAt n) : (s.ahead n).token.kind = .rbrace := by
  obtain ⟨m, rfl⟩ := Nat.exists_eq_add_one.2 h.pos
  have hbraces := h.braces_eq
  have hinner := h.le_braces (Nat.lt_succ_self m)
  rw [ahead_succ, braces_next] at hbraces
  rw [ahead_succ]
  apply braceStep_neg
  omega

/-- The input does not end before the closing brace. -/
theorem ne_eof (h : s.ClosesAt n) (hm : m < n) : (s.ahead (m + 1)).token.kind ≠ .eof := by
  apply kind_ahead_ne_eof hm
  have hinner := h.le_braces hm
  have hbraces := h.braces_eq
  omega

theorem bracesBefore_eq (h : s.ClosesAt n) (hs : s.token.kind = .lbrace) :
    (s.ahead n).braces = s.bracesBefore := by
  rw [h.braces_eq, bracesBefore, hs]
  rfl

end ClosesAt

/-- A brace that is never closed is followed by the end of input, and the braces stay as deep. -/
theorem le_braces_of_not_closed (h : ∀ n, ¬Token.CloseOne (s.next.run n)) (n : Nat) :
    s.braces ≤ (s.ahead n).braces := by
  induction n with
  | zero => exact Int.le_refl _
  | succ n ih =>
    have hstep := neg_one_le_braceStep (s.ahead (n + 1)).token.kind
    have hnot : (s.ahead (n + 1)).braces ≠ s.braces - 1 := fun heq =>
      h (n + 1) (closeOne_run_iff.2 heq)
    rw [ahead_succ] at hstep hnot ⊢
    rw [braces_next] at hnot ⊢
    omega

end Scanner

end AcsOutline
