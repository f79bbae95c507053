import AcsOutline.Value.Reader

/-!
# The tokens of a value

A value is read from a run of tokens: the current one and those that follow it, up to the first
one that ends a value.  `Scanner.run` lists the first tokens of a scanner and `Scanner.ahead` is
the scanner after them; `Scanner.ValueEnds` says after how many of them a value ends, and there
always is such a number (`exists_valueEnds`).

Reading a value is then a fold over its run (`Value.read_eq`): each token does one thing to the
open groups (`Nest.take`), and what is left open is closed at the end.  The one exception is an
opening parenthesis with nothing but the end of input after it.
-/

namespace AcsOutline

/-- A token that does not end a value is not of a kind that does. -/
theorem Value.ne_of_endsValue {k l : TokenKind} (hk : endsValue k = false)
    (hl : endsValue l = true) : k ≠ l := by
  rintro rfl
  rw [hk] at hl
  cases hl

namespace Scanner

/-- A scanner after a number of further tokens. -/
def ahead (s : Scanner) : Nat → Scanner
  | 0 => s
  | n + 1 => s.next.ahead n

/-- The current token of a scanner and those after it, a given number in all. -/
def run (s : Scanner) : Nat → List Token
  | 0 => []
  | n + 1 => s.token :: s.next.run n

/-- The first token of a scanner that ends a value is the one with number `n`, where the current
token has number zero. -/
structure ValueEnds (s : Scanner) (n : Nat) : Prop where
  ends : Value.endsValue (s.ahead n).token.kind = true
  goes_on : ∀ i < n, Value.endsValue (s.ahead i).token.kind = false

/-- Directly before the token with number `n`, which is the end of input, a parenthesis is
opened. -/
def OpensBeforeEnd (s : Scanner) (n : Nat) : Prop :=
  0 < n ∧ (s.ahead (n - 1)).token.kind = .lparen ∧ (s.ahead n).token.kind = .eof

instance (s : Scanner) (n : Nat) : Decidable (s.OpensBeforeEnd n) :=
  inferInstanceAs (Decidable (_ ∧ _ ∧ _))

theorem ValueEnds.tail {s : Scanner} {n : Nat} (h : s.ValueEnds (n + 1)) :
    s.next.ValueEnds n where
  ends := h.ends
  goes_on i hi := h.goes_on (i + 1) (by omega)

theorem ValueEnds.cons {s : Scanner} {n : Nat}
    (hs : Value.endsValue s.token.kind = false) (h : s.next.ValueEnds n) :
    s.ValueEnds (n + 1) where
  ends := h.ends
  goes_on i hi := by
    cases i with
    | zero => exact hs
    | succ i => exact h.goes_on i (by omega)

/-- Some token ends a value, if nothing else the end of input. -/
theorem exists_valueEnds (s : Scanner) : ∃ n, s.ValueEnds n := by
  cases hs : Value.endsValue s.token.kind with
  | true => exact ⟨0, hs, fun i hi => absurd hi (Nat.not_lt_zero i)⟩
  | false =>
    -- then it is not the end of input, and there is less to read after it
    have hlt := remaining_next_lt (Or.inl (Value.ne_of_endsValue hs rfl))
    obtain ⟨n, hn⟩ := s.next.exists_valueEnds
    exact ⟨n + 1, hn.cons hs⟩
termination_by s.remaining

/-- No token before the end ends the value. -/
theorem ValueEnds.of_mem_run {s : Scanner} {n : Nat} (h : s.ValueEnds n) {t : Token}
    (ht : t ∈ s.run n) : Value.endsValue t.kind = false := by
  induction n generalizing s with
  | zero => cases ht
  | succ n ih =>
    rcases List.mem_cons.1 ht with rfl | ht
    · exact h.goes_on 0 (Nat.succ_pos n)
    · exact ih h.tail ht

/-- A parenthesis opened before the end, seen from the token after the current one. -/
theorem opensBeforeEnd_succ {s : Scanner} {n : Nat} (hn : 0 < n) :
    s.OpensBeforeEnd (n + 1) ↔ s.next.OpensBeforeEnd n := by
  obtain ⟨m, rfl⟩ := Nat.exists_eq_add_one.2 hn
  simp [OpensBeforeEnd, ahead]

end Scanner

namespace Value

namespace Nest

/-- What a token with a given kind and text does to the open groups. -/
def take (n : Nest) (kind : TokenKind) (text : String) : Nest :=
  if kind = .lparen then n.openGroup
  else if kind = .rparen then n.closeGroup
  else n.push (.leaf kind text)

theorem take_of_open (n : Nest) (text : String) : n.take .lparen text = n.openGroup :=
  if_pos rfl

theorem take_of_close (n : Nest) (text : String) : n.take .rparen text = n.closeGroup :=
  rfl

theorem take_of_plain (n : Nest) {kind : TokenKind} (hopen : kind ≠ .lparen)
    (hclose : kind ≠ .rparen) (text : String) : n.take kind text = n.push (.leaf kind text) := by
  rw [take, if_neg hopen, if_neg hclose]

/-- What a run of tokens does to the open groups. -/
def takeAll (n : Nest) (ts : List Token) : Nest :=
  ts.foldl (fun n t => n.take t.kind t.text) n

end Nest

/-- The value of a run of tokens. -/
def ofRun (ts : List Token) : Value :=
  ⟨(Nest.empty.takeAll ts).finish⟩

/-- **One token of a value.**  It ends the value, or it changes the open groups; only an opening
parenthesis directly before the end of input fails. -/
theorem readPiece_eq (n : Nest) (s : Scanner) :
    readPiece n s =
      if endsValue s.token.kind then .ok (.done ⟨n.finish⟩) s
      else if s.token.kind = .lparen ∧ s.next.token.kind = .eof then
        .error (.endOfInput s.next.token.span) s.next
      else .ok (.again (n.take s.token.kind s.token.text)) s.next := by
  unfold readPiece
  rw [Reading.current_bind]
  by_cases hends : endsValue s.token.kind = true
  · rw [if_pos hends, if_pos hends]
    rfl
  rw [if_neg hends, if_neg hends]
  by_cases hopen : s.token.kind = .lparen
  · rw [if_pos hopen, Reading.advance_bind, hopen, Nest.take_of_open]
    by_cases heof : s.next.token.kind = .eof
    · rw [if_pos heof, if_pos ⟨rfl, heof⟩]
    · rw [if_neg heof, if_neg fun h => heof h.2]
      rfl
  · have hfails : ¬(s.token.kind = .lparen ∧ s.next.token.kind = .eof) := fun h => hopen h.1
    rw [if_neg hopen, if_neg hfails]
    by_cases hclose : s.token.kind = .rparen
    · rw [if_pos hclose, hclose, Nest.take_of_close]
      rfl
    · rw [if_neg hclose, Nest.take_of_plain n hopen hclose]
      rfl

/-- **Reading a value is a fold over its tokens**, whatever groups are open. -/
theorem loop_readPiece_eq (nest : Nest) {s : Scanner} {n : Nat} (h : s.ValueEnds n) :
    Reading.loop readPiece readPiece_progresses nest s =
      if s.OpensBeforeEnd n then .error (.endOfInput (s.ahead n).token.span) (s.ahead n)
      else .ok ⟨(nest.takeAll (s.run n)).finish⟩ (s.ahead n) := by
  induction n generalizing nest s with
  | zero =>
    have hstop : ¬s.OpensBeforeEnd 0 := fun hopen => absurd hopen.1 (Nat.lt_irrefl 0)
    have hends : endsValue s.token.kind = true := h.ends
    rw [Reading.loop_eq, readPiece_eq, if_pos hends, if_neg hstop]
    rfl
  | succ n ih =>
    -- the current token does not end the value, so there is a round for it
    have hgoes : ¬endsValue s.token.kind = true := by
      rw [show endsValue s.token.kind = false from h.goes_on 0 (Nat.succ_pos n)]
      exact Bool.false_ne_true
    rw [Reading.loop_eq, readPiece_eq, if_neg hgoes]
    by_cases hopen : s.token.kind = .lparen ∧ s.next.token.kind = .eof
    · -- the end of input ends the value, so nothing follows the parenthesis
      have hn : n = 0 := by
        rcases Nat.eq_zero_or_pos n with hn | hn
        · exact hn
        · exact absurd hopen.2 (ne_of_endsValue (h.tail.goes_on 0 hn) rfl)
      subst hn
      rw [if_pos hopen, if_pos ⟨Nat.one_pos, hopen⟩]
      rfl
    · rw [if_neg hopen]
      show Reading.loop readPiece readPiece_progresses
        (nest.take s.token.kind s.token.text) s.next = _
      rw [ih (nest.take s.token.kind s.token.text) h.tail]
      have hiff : s.OpensBeforeEnd (n + 1) ↔ s.next.OpensBeforeEnd n := by
        rcases Nat.eq_zero_or_pos n with hn | hn
        · subst hn
          exact ⟨fun hs => absurd hs.2 hopen, fun hs => absurd hs.1 (Nat.lt_irrefl 0)⟩
        · exact Scanner.opensBeforeEnd_succ hn
      by_cases hs : s.OpensBeforeEnd (n + 1)
      · rw [if_pos hs, if_pos (hiff.1 hs)]
        rfl
      · rw [if_neg hs, if_neg fun hs' => hs (hiff.2 hs')]
        rfl

/-- **Reading a value**, given where it ends. -/
theorem read_eq {s : Scanner} {n : Nat} (h : s.ValueEnds n) :
    read s =
      if s.OpensBeforeEnd n then .error (.endOfInput (s.ahead n).token.span) (s.ahead n)
      else .ok (ofRun (s.run n)) (s.ahead n) :=
  loop_readPiece_eq .empty h

end Value

end AcsOutline
