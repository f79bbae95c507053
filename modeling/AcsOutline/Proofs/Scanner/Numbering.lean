import AcsOutline.Proofs.Scanner.Lines
import AcsOutline.Proofs.Scanner.Reached

/-!
# Line numbers

Whatever commands drive a scanner, the line that it is on, the lines of the tokens that it reads
and those of the trivia that it keeps are the lines of their places in the source
(`Workbench.lines_after`).

The invariant is `Scanner.Numbered`.  A workbench keeps it for its scanner and for each place that
an open scope may go back to (`Workbench.Numbered`); to go back keeps some of the trivia, and the
token and the count of the place.
-/

namespace AcsOutline

/-- The line on which a byte offset of a text lies, counted from one. -/
def Text.lineAt (cs : List Char) (n : Nat) : Nat :=
  1 + countBreaks (takeBytes n cs)

namespace Scanner

variable {s t : Scanner} {p : Snapshot}

/-- A scanner counts lines, and its token and its trivia have the lines on which they start. -/
structure Numbered (s : Scanner) : Prop where
  counted : s.Counted
  token : s.token.line = Text.lineAt s.source s.token.span.start
  trivia : ∀ x ∈ s.skipped, x.line = Text.lineAt s.source x.span.start

theorem Counted.line_eq (h : s.Counted) : s.line = Text.lineAt s.source s.position := by
  obtain ⟨before, hsource, hlength, hline, -⟩ := h
  rw [Text.lineAt, hsource, ← hlength, Text.takeBytes_append, ← hline, Nat.add_comm]

theorem numbered_ofList (source : List Char) : (ofList source).Numbered where
  counted := counted_ofList source
  token := (counted_ofList source).line_eq
  trivia _ h := nomatch h

/-- What is skipped is recorded with the line on which it starts. -/
theorem Numbered.skipTrivia (h : s.Numbered) : s.skipTrivia.Numbered := by
  fun_induction Scanner.skipTrivia s with
  | case1 => exact h
  | case2 s kind spelling rest hread ih =>
    refine ih ⟨h.counted.skip hread, h.token, fun x hx => ?_⟩
    rcases List.mem_cons.1 hx with rfl | hx
    · exact h.counted.line_eq
    · exact h.trivia x hx

/-- **A token is read with the line on which it starts**, which is the line that the trivia before
it ends on. -/
theorem Numbered.next (h : s.Numbered) : s.next.Numbered where
  counted := h.counted.next
  token := h.skipTrivia.counted.line_eq
  trivia := h.skipTrivia.trivia

theorem Numbered.ahead (h : s.Numbered) (n : Nat) : (s.ahead n).Numbered := by
  induction n generalizing s with
  | zero => exact h
  | succ n ih => exact ih h.next

/-- To go back to a place keeps the numbers, if the place had them in the same source. -/
theorem Numbered.restore (ht : t.Numbered) (hs : (s.restore p).Numbered)
    (hsource : t.source = s.source) : (t.restore p).Numbered where
  counted := by
    have hcounted := hs.counted
    unfold Counted at hcounted ⊢
    show ∃ before, t.source = _ ∧ _
    rw [hsource]
    exact hcounted
  token := by
    show p.token.line = Text.lineAt t.source p.token.span.start
    rw [hsource]
    exact hs.token
  trivia x hx := ht.trivia x (List.mem_of_mem_drop hx)

end Scanner

namespace Workbench

open Scanner

/-- The scanner of a workbench has its lines right, and so has each place to which it may go
back. -/
structure Numbered (source : List Char) (w : Workbench) : Prop where
  source_eq : w.scanner.source = source
  here : w.scanner.Numbered
  saved : ∀ p ∈ w.saved, (w.scanner.restore p).Numbered

variable {source : List Char} {w : Workbench}

/-- A scanner that has moved on over the same source, with the same scopes open. -/
theorem Numbered.move (h : w.Numbered source) {t : Scanner} (ht : t.Numbered)
    (hsource : t.source = w.scanner.source) : Numbered source { w with scanner := t } where
  source_eq := hsource.trans h.source_eq
  here := ht
  saved p hp := ht.restore (h.saved p hp) hsource

/-- To read ahead keeps the lines right. -/
theorem Numbered.perform (h : w.Numbered source) {α : Type} {p : Reading α} (hp : p.Forward)
    (hahead : ∃ n, Reading.Result.scanner (p w.scanner) = w.scanner.ahead n)
    (reply : α → Command.Reply) : (w.perform p reply).2.Numbered source := by
  have hsource := (hp w.scanner).source_eq
  obtain ⟨n, hn⟩ := hahead
  rw [perform_snd]
  rw [hn] at hsource ⊢
  exact h.move (h.here.ahead n) hsource

/-- **One command keeps the lines right.** -/
theorem Numbered.step (h : w.Numbered source) (c : Command) : (w.step c).2.Numbered source := by
  cases c with
  | advance =>
    exact h.perform Reading.forward_advance ⟨1, Reading.scanner_advance w.scanner⟩ _
  | next => exact h.perform Reading.forward_next ⟨1, rfl⟩ _
  | peek =>
    exact h.perform Reading.forward_peek ⟨0, by rw [Reading.peek_eq]; rfl⟩ _
  | value => exact h.perform Value.forward_read w.scanner.exists_ahead_of_read _
  | setMask mask =>
    exact h.move ⟨h.here.counted, h.here.token, h.here.trivia⟩ rfl
  | triviaSince mark => exact h
  | idle => exact h
  | beginScope =>
    refine ⟨h.source_eq, h.here, fun p hp => ?_⟩
    rcases List.mem_cons.1 hp with rfl | hp
    · show (w.scanner.restore w.scanner.snapshot).Numbered
      rw [Scanner.restore_snapshot (.refl w.scanner)]
      exact h.here
    · exact h.saved p hp
  | acceptScope =>
    obtain ⟨s, saved⟩ := w
    cases saved with
    | nil => exact h
    | cons place saved =>
      exact ⟨h.source_eq, h.here, fun p hp => h.saved p (List.mem_cons_of_mem _ hp)⟩
  | rollBackScope =>
    obtain ⟨s, saved⟩ := w
    cases saved with
    | nil => exact h
    | cons place saved =>
      have hback : (s.restore place).Numbered := h.saved place List.mem_cons_self
      exact ⟨h.source_eq, hback, fun p hp =>
        hback.restore (h.saved p (List.mem_cons_of_mem _ hp)) rfl⟩

/-- **Any number of commands.** -/
theorem Numbered.after (h : w.Numbered source) (cs : List Command) :
    (w.after cs).Numbered source := by
  induction cs generalizing w with
  | nil => exact h
  | cons c cs ih => exact ih (h.step c)

/-- A token that a command answers is the one that the scanner reads next. -/
theorem eq_of_step_eq_token {c : Command} {t : Token} (h : (w.step c).1 = .token t) :
    t = w.scanner.next.token := by
  cases c with
  | advance =>
    unfold step perform Reading.advance at h
    by_cases heof : w.scanner.next.token.kind = .eof
    · simp [heof] at h
    · simpa [heof, eq_comm] using h
  | next => exact (Command.Reply.token.inj h).symm
  | peek => exact (Command.Reply.token.inj h).symm
  | value =>
    unfold step perform at h
    cases hread : Value.read w.scanner <;> simp [hread] at h
  | acceptScope | rollBackScope =>
    obtain ⟨s, saved⟩ := w
    cases saved <;> cases h
  | _ => cases h

/-- **Lines are right in every state.**  After any commands on any source, the line of the scanner
is one more than the number of line breaks before its position, and so is, for the place where each
starts, the line of its token, of every piece of trivia that it keeps, and of every token that a
command answers. -/
theorem lines_after (source : List Char) (cs : List Command) :
    let w := (ofScanner (.ofList source)).after cs
    w.scanner.line = Text.lineAt source w.scanner.position ∧
      w.scanner.token.line = Text.lineAt source w.scanner.token.span.start ∧
      (∀ x ∈ w.scanner.trivia, x.line = Text.lineAt source x.span.start) ∧
      ∀ c t, (w.step c).1 = .token t → t.line = Text.lineAt source t.span.start := by
  intro w
  have hfresh : (ofScanner (.ofList source)).Numbered source :=
    ⟨rfl, numbered_ofList source, fun _ hp => nomatch hp⟩
  have h : w.Numbered source := hfresh.after cs
  refine ⟨?_, ?_, fun x hx => ?_, fun c t ht => ?_⟩
  · rw [← h.source_eq]
    exact h.here.counted.line_eq
  · rw [← h.source_eq]
    exact h.here.token
  · rw [← h.source_eq]
    exact h.here.trivia x (List.mem_reverse.1 hx)
  · rw [eq_of_step_eq_token ht, h.here.next.token, w.scanner.follows_next.source_eq, h.source_eq]

end Workbench

end AcsOutline
