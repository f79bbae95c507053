import AcsOutline.Proofs.Scanner.Spelling
import AcsOutline.Proofs.Value.Run
import AcsOutline.Scanner.Command

/-!
# What a scanner can reach

Whatever commands drive a scanner, its current token is either the end of input or was read from
the source where the mask left no trivia to skip.  `Sound` is this invariant of a scanner and of
each place that a scope may go back to, for the masks that the commands select; it holds of a
fresh scanner and every command keeps it (`Workbench.sound_after`).
-/

namespace AcsOutline

namespace Lexeme

/-- Only a punctuation character itself is read as its kind. -/
theorem extent_eq_of_mem {c d : Char} {cs : List Char}
    (h : (d, (extent c cs).1) ∈ punctuation) : c = d ∧ (extent c cs).2 = 0 := by
  have hshape := shape_extent c cs
  generalize extent c cs = e at hshape h ⊢
  cases hshape with
  | punctuation hlookup =>
    have hinj : ∀ p ∈ punctuation, ∀ q ∈ punctuation, p.2 = q.2 → p.1 = q.1 := by decide
    exact ⟨hinj (c, _) (mem_of_lookup hlookup) (d, _) h rfl, rfl⟩
  | word =>
    have hwords : ∀ p ∈ punctuation, p.2.isWord = false := by decide
    have hword := hwords (d, _) h
    rw [TokenKind.isWord_ofWord] at hword
    cases hword
  | _ => simp [punctuation] at h

end Lexeme

namespace Token

/-- A token that was read from some text which does not begin with trivia that an allowed mask
selects; or the end of input. -/
def ReadUnder (allowed : SkipMask → Prop) (t : Token) : Prop :=
  t.kind = .eof ∨
    ∃ mask cs, allowed mask ∧ Trivia.read? mask cs = none ∧
      t.kind = (Lexeme.read cs).1.kind ∧ t.text = (Lexeme.read cs).1.text

/-- A token of the kind of a punctuation character is written as that character. -/
theorem ReadUnder.text_eq {allowed : SkipMask → Prop} {t : Token} (h : t.ReadUnder allowed)
    {d : Char} (hd : (d, t.kind) ∈ Lexeme.punctuation) : t.text = String.ofList [d] := by
  rcases h with heof | ⟨mask, cs, -, -, hkind, htext⟩
  · rw [heof] at hd
    exact absurd rfl (Lexeme.kind_ne_eof_of_mem hd)
  rw [hkind] at hd
  rw [htext]
  cases cs with
  | nil => exact absurd rfl (Lexeme.kind_ne_eof_of_mem hd)
  | cons c cs =>
    by_cases hnul : c = '\x00'
    · simp only [Lexeme.read, hnul, if_true] at hd
      exact absurd rfl (Lexeme.kind_ne_eof_of_mem hd)
    · rw [Lexeme.read_cons hnul] at hd ⊢
      obtain ⟨rfl, hn⟩ := Lexeme.extent_eq_of_mem hd
      have hstring : (Lexeme.extent c cs).1 ≠ .string := Lexeme.kind_ne_string_of_mem hd
      rw [Lexeme.text, if_neg hstring, hn, List.take_zero]

end Token

/-- The mask is an allowed one, and the token was read under such a mask. -/
structure Sound (allowed : SkipMask → Prop) (mask : SkipMask) (t : Token) : Prop where
  mask_allowed : allowed mask
  token_read : t.ReadUnder allowed

namespace Scanner

/-! ## Reading on -/

theorem mask_skipTrivia (s : Scanner) : s.skipTrivia.mask = s.mask := by
  fun_induction skipTrivia s with
  | case1 => rfl
  | case2 s kind spelling rest _ ih => exact ih

/-- After trivia is skipped there is none left to skip. -/
theorem read?_skipTrivia (s : Scanner) : Trivia.read? s.mask s.skipTrivia.rest = none := by
  fun_induction skipTrivia s with
  | case1 s h => exact h
  | case2 s kind spelling rest _ ih => exact ih

theorem mask_next (s : Scanner) : s.next.mask = s.mask :=
  s.mask_skipTrivia

theorem skipTrivia_skipTrivia (s : Scanner) : s.skipTrivia.skipTrivia = s.skipTrivia :=
  skipTrivia_of_none (by rw [mask_skipTrivia]; exact s.read?_skipTrivia)

theorem next_skipTrivia (s : Scanner) : s.skipTrivia.next = s.next :=
  congrArg readToken s.skipTrivia_skipTrivia

theorem braces_skipTrivia (s : Scanner) : s.skipTrivia.braces = s.braces := by
  fun_induction skipTrivia s with
  | case1 => rfl
  | case2 s kind spelling rest h ih => exact ih

theorem braces_next (s : Scanner) : s.next.braces = s.braces + braceStep s.next.token.kind :=
  congrArg (· + braceStep s.next.token.kind) s.braces_skipTrivia

/-- The token that was read last stands directly before the position. -/
theorem stop_next (s : Scanner) : s.next.token.span.stop = s.next.position :=
  Nat.max_eq_right (Nat.le_add_right _ _)

/-- No trivia follows the end of input. -/
theorem skipTrivia_next_of_eof {s : Scanner} (h : s.next.token.kind = .eof) :
    s.next.skipTrivia = s.next := by
  refine skipTrivia_of_none ?_
  rw [mask_next, show s.next.rest = s.skipTrivia.rest from Lexeme.read_rest_of_eof h]
  exact s.read?_skipTrivia

/-- The end of input stays the next token. -/
theorem kind_next_next_of_eof {s : Scanner} (h : s.next.token.kind = .eof) :
    s.next.next.token.kind = .eof := by
  show (Lexeme.read s.next.skipTrivia.rest).1.kind = .eof
  rw [skipTrivia_next_of_eof h, show s.next.rest = s.skipTrivia.rest from Lexeme.read_rest_of_eof h]
  exact h

theorem kind_next_of_rest_nil {s : Scanner} (h : s.rest = []) : s.next.token.kind = .eof := by
  have hskip : s.skipTrivia = s := skipTrivia_of_none (by rw [h]; rfl)
  show (Lexeme.read s.skipTrivia.rest).1.kind = .eof
  rw [hskip, h]
  rfl

variable {allowed : SkipMask → Prop}

/-- **The token that is read next was read under the mask.** -/
theorem sound_next {s : Scanner} (h : allowed s.mask) :
    Sound allowed s.next.mask s.next.token where
  mask_allowed := by
    rw [mask_next]
    exact h
  token_read := Or.inr ⟨s.mask, s.skipTrivia.rest, h, s.read?_skipTrivia, rfl, rfl⟩

theorem sound_ahead {s : Scanner} (h : Sound allowed s.mask s.token) (n : Nat) :
    Sound allowed (s.ahead n).mask (s.ahead n).token := by
  induction n generalizing s with
  | zero => exact h
  | succ n ih => exact ih (sound_next h.mask_allowed)

/-- Reading a value goes ahead by some number of tokens. -/
theorem exists_ahead_of_read (s : Scanner) :
    ∃ n, Reading.Result.scanner (Value.read s) = s.ahead n := by
  obtain ⟨n, hn⟩ := s.exists_valueEnds
  refine ⟨n, ?_⟩
  rw [Value.read_eq hn]
  split <;> rfl

/-- All tokens of a run were read under the mask. -/
theorem readUnder_of_mem_run {s : Scanner} (h : Sound allowed s.mask s.token) {n : Nat}
    {t : Token} (ht : t ∈ s.run n) : t.ReadUnder allowed := by
  induction n generalizing s with
  | zero => cases ht
  | succ n ih =>
    rcases List.mem_cons.1 ht with rfl | ht
    · exact h.token_read
    · exact ih (sound_next h.mask_allowed) ht

end Scanner

namespace Workbench

variable {allowed : SkipMask → Prop}

/-- The scanner and each place where an open scope began are sound. -/
structure AllSound (allowed : SkipMask → Prop) (w : Workbench) : Prop where
  scanner : Sound allowed w.scanner.mask w.scanner.token
  saved : ∀ p ∈ w.saved, Sound allowed p.mask p.token

theorem allSound_ofList (hall : allowed .all) (source : List Char) :
    (ofScanner (.ofList source)).AllSound allowed where
  scanner := ⟨hall, Or.inl rfl⟩
  saved _ hp := nomatch hp

/-- A reading that goes ahead keeps the workbench sound. -/
theorem AllSound.perform {α : Type} {w : Workbench} (hw : w.AllSound allowed) {p : Reading α}
    (hp : ∀ s, ∃ n, Reading.Result.scanner (p s) = s.ahead n) (reply : α → Command.Reply) :
    (w.perform p reply).2.AllSound allowed := by
  obtain ⟨n, hn⟩ := hp w.scanner
  rw [perform_snd, hn]
  exact ⟨Scanner.sound_ahead hw.scanner n, hw.saved⟩

/-- **One command keeps a workbench sound**, if it selects no mask but an allowed one. -/
theorem AllSound.step {w : Workbench} (hw : w.AllSound allowed) (c : Command)
    (hc : ∀ mask, c = .setMask mask → allowed mask) : (w.step c).2.AllSound allowed := by
  -- the commands that read go ahead; those for scopes only move places that are sound already
  cases c with
  | advance => exact hw.perform (fun s => ⟨1, Reading.scanner_advance s⟩) _
  | next => exact hw.perform (fun s => ⟨1, rfl⟩) _
  | peek =>
    refine hw.perform (fun s => ⟨0, ?_⟩) _
    rw [Reading.peek_eq]
    rfl
  | value => exact hw.perform Scanner.exists_ahead_of_read _
  | setMask mask => exact ⟨⟨hc mask rfl, hw.scanner.token_read⟩, hw.saved⟩
  | beginScope =>
    refine ⟨hw.scanner, fun p hp => ?_⟩
    rcases List.mem_cons.1 hp with rfl | hp
    · exact hw.scanner
    · exact hw.saved p hp
  | acceptScope =>
    obtain ⟨s, saved⟩ := w
    cases saved with
    | nil => exact hw
    | cons place saved =>
      exact ⟨hw.scanner, fun p hp => hw.saved p (List.mem_cons_of_mem place hp)⟩
  | rollBackScope =>
    obtain ⟨s, saved⟩ := w
    cases saved with
    | nil => exact hw
    | cons place saved =>
      have hplace := hw.saved place List.mem_cons_self
      exact ⟨⟨hplace.mask_allowed, hplace.token_read⟩,
        fun p hp => hw.saved p (List.mem_cons_of_mem place hp)⟩
  | triviaSince | idle => exact hw

/-- **Any list of commands keeps a workbench sound.** -/
theorem AllSound.after {w : Workbench} (hw : w.AllSound allowed) {cs : List Command}
    (hcs : ∀ mask, .setMask mask ∈ cs → allowed mask) : (w.after cs).AllSound allowed := by
  induction cs generalizing w with
  | nil => exact hw
  | cons c cs ih =>
    have hstep := hw.step c fun mask e => hcs mask (by simp [e])
    exact ih hstep fun mask hmem => hcs mask (by simp [hmem])

/-- What commands reach from the start of a source is sound. -/
theorem sound_after (hall : allowed .all) (source : List Char) {cs : List Command}
    (hcs : ∀ mask, .setMask mask ∈ cs → allowed mask) :
    Sound allowed ((ofScanner (.ofList source)).after cs).scanner.mask
      ((ofScanner (.ofList source)).after cs).scanner.token :=
  ((allSound_ofList hall source).after hcs).scanner

end Workbench

end AcsOutline
