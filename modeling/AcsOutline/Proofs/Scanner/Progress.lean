import AcsOutline.Proofs.Scanner.Depths
import AcsOutline.Proofs.Scanner.Scopes
import AcsOutline.Proofs.Scanner.Tiling

/-!
# Progress and the end of input

A scanner reads on until the input ends, and there it stays.  A token other than the end of input
takes characters, so that the position moves on (`Scanner.position_lt_next`).  Where the end of
input was read, no sort of trivia and no token begins: the scanner stands still whatever it is told
to skip (`Scanner.AtEnd`).

`Workbench.moves_on_or_stays` says so of commands.  From the end of input on, a command that begins
and ends no scope can only select other trivia (`step_at_end`); scopes drop out, since well-nested
commands do what is left of them without scopes.
-/

namespace AcsOutline

namespace Scanner

variable {s : Scanner}

theorem position_le_skipTrivia (s : Scanner) : s.position ≤ s.skipTrivia.position := by
  fun_induction skipTrivia s with
  | case1 => exact Nat.le_refl _
  | case2 s kind spelling rest h ih => exact Nat.le_trans (Nat.le_add_right _ _) ih

/-- To read a token is not to move back. -/
theorem position_le_next (s : Scanner) : s.position ≤ s.next.position :=
  Nat.le_trans s.position_le_skipTrivia (Nat.le_add_right _ _)

/-- A token other than the end of input moves the position on. -/
theorem position_lt_next (h : s.next.token.kind ≠ .eof) : s.position < s.next.position := by
  have hspelling : (Lexeme.read s.skipTrivia.rest).1.spelling ≠ [] :=
    fun hnil => h ((Lexeme.spelling_eq_nil_iff _).1 hnil)
  calc
    s.position ≤ s.skipTrivia.position := s.position_le_skipTrivia
    _ < s.skipTrivia.position + Text.byteLength (Lexeme.read s.skipTrivia.rest).1.spelling :=
      Nat.lt_add_of_pos_right (byteLength_pos hspelling)

/-! ## The end of input -/

/-- A scanner at the end of input: it stands still there, whatever it skips. -/
structure AtEnd (s : Scanner) : Prop where
  eof : s.token.kind = .eof
  still : ∀ mask, (s.withMask mask).next = s.withMask mask

theorem AtEnd.withMask (h : s.AtEnd) (mask : SkipMask) : (s.withMask mask).AtEnd :=
  ⟨h.eof, h.still⟩

theorem AtEnd.next_eq (h : s.AtEnd) : s.next = s :=
  h.still s.mask

/-- No sort of trivia begins where the input ends. -/
theorem read?_eq_none_of_eof {cs : List Char} (h : (Lexeme.read cs).1.kind = .eof)
    (mask : SkipMask) : Trivia.read? mask cs = none := by
  rcases Lexeme.eq_nil_or_nul_of_eof h with rfl | ⟨after, rfl⟩
  · rfl
  · have hblank : Text.isBlank '\x00' = false := by decide
    simp [Trivia.read?, Trivia.extent, hblank]

/-- **The end of input is read once and for all.** -/
theorem atEnd_next (h : s.next.token.kind = .eof) : s.next.AtEnd where
  eof := h
  still := by
    intro mask
    have hrest : s.next.rest = s.skipTrivia.rest := Lexeme.read_rest_of_eof h
    have hskip : (s.next.withMask mask).skipTrivia = s.next.withMask mask := by
      refine skipTrivia_of_none ?_
      show Trivia.read? mask s.next.rest = none
      rw [hrest]
      exact read?_eq_none_of_eof h mask
    -- the mask does not matter for reading a token
    have hmask : s.next.withMask mask = (s.skipTrivia.withMask mask).readToken := rfl
    rw [hmask] at hskip ⊢
    rw [next, hskip]
    exact readToken_readToken_of_eof h

/-- No value is read at the end of input. -/
theorem AtEnd.read_eq (h : s.AtEnd) : Value.read s = .ok (Value.ofRun []) s := by
  have hends : s.ValueEnds 0 :=
    ⟨by rw [ahead, h.eof]; rfl, fun i hi => absurd hi (Nat.not_lt_zero i)⟩
  have hopens : ¬s.OpensBeforeEnd 0 := fun hopen => absurd hopen.1 (Nat.lt_irrefl 0)
  rw [Value.read_eq hends, if_neg hopens]
  rfl

end Scanner

namespace Workbench

variable {s : Scanner}

/-- **One command at the end of input** can only select other trivia. -/
theorem step_at_end (hs : s.AtEnd) {c : Command} (hc : c.isPlain = true) (saved : List Snapshot) :
    ∃ mask, (step ⟨s, saved⟩ c).2 = ⟨s.withMask mask, saved⟩ := by
  have hperform : ∀ {α : Type} {p : Reading α} (reply : α → Command.Reply),
      Reading.Result.scanner (p s) = s →
        ∃ mask, (perform ⟨s, saved⟩ p reply).2 = ⟨s.withMask mask, saved⟩ := by
    intro α p reply hp
    refine ⟨s.mask, ?_⟩
    rw [perform_snd, hp]
    rfl
  cases c with
  | advance => exact hperform _ ((Reading.scanner_advance s).trans hs.next_eq)
  | next => exact hperform _ hs.next_eq
  | peek => exact ⟨s.mask, step_peek _⟩
  | value => exact hperform _ (congrArg Reading.Result.scanner hs.read_eq)
  | setMask mask => exact ⟨mask, rfl⟩
  | triviaSince mark => exact ⟨s.mask, rfl⟩
  | idle => exact ⟨s.mask, rfl⟩
  | beginScope | acceptScope | rollBackScope => cases hc

/-- Any number of commands. -/
theorem after_at_end (hs : s.AtEnd) {cs : List Command} (hcs : ∀ c ∈ cs, c.isPlain = true)
    (saved : List Snapshot) : ∃ mask, after ⟨s, saved⟩ cs = ⟨s.withMask mask, saved⟩ := by
  induction cs generalizing s with
  | nil => exact ⟨s.mask, rfl⟩
  | cons c cs ih =>
    obtain ⟨mask, hstep⟩ := step_at_end hs (hcs c List.mem_cons_self) saved
    obtain ⟨mask', hafter⟩ := ih (hs.withMask mask) fun d hd => hcs d (List.mem_cons_of_mem c hd)
    exact ⟨mask', by rw [after_cons, hstep, hafter]; rfl⟩

/-- **Reading moves on, and the end of input is final.**  Whatever was done before, to read a token
either gives one that is not the end of input, and moves the position on, or gives the end of input.
In that case, after any further commands with well-nested scopes, among them any choices of trivia
to skip, the workbench is the same but for that choice, and to read a token gives the same end of
input and leaves the workbench as it is. -/
theorem moves_on_or_stays (w : Workbench) :
    ∃ t, (w.step .next).1 = .token t ∧
      ((t.kind ≠ .eof ∧ w.scanner.position < (w.step .next).2.scanner.position) ∨
        (t.kind = .eof ∧ ∀ later : List Plan, ∃ mask,
          let v : Workbench :=
            { (w.step .next).2 with scanner := (w.step .next).2.scanner.withMask mask }
          (w.step .next).2.after (Plan.commandsAll later) = v ∧ v.step .next = (.token t, v))) := by
  obtain ⟨s, saved⟩ := w
  refine ⟨s.next.token, rfl, ?_⟩
  by_cases heof : s.next.token.kind = .eof
  · refine Or.inr ⟨heof, fun later => ?_⟩
    have hend : s.next.AtEnd := Scanner.atEnd_next heof
    obtain ⟨mask, hafter⟩ := after_at_end hend
      (fun c hc => (Plan.plain_of_mem_flattenAll later c hc).1) saved
    refine ⟨mask, (after_commandsAll later _).trans hafter, ?_⟩
    show ((.token (s.next.withMask mask).next.token,
      ⟨(s.next.withMask mask).next, saved⟩) : Command.Reply × Workbench) = _
    rw [hend.still mask]
    rfl
  · exact Or.inl ⟨heof, Scanner.position_lt_next heof⟩

end Workbench

end AcsOutline
