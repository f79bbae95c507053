import AcsOutline.Grammar.Callable
import AcsOutline.Proofs.Grammar.Outcomes
import AcsOutline.Proofs.Scanner.Depths

/-!
# Skipped blocks

What is skipped ends at the first token by which the braces are no deeper than asked for
(`skipTo_eq`); if they stay deeper, the end of input is reached and is the fault (`skipTo_error`).

Functions and scripts ask how deep the braces are at different moments, some of them more than
once.  Whatever they read, they know in the end how deep the braces are before the one that opens
the body (`depth_functionSignature`, `depth_modifiers`).  With that depth a body is skipped up to
the brace that closes its own (`skipTo_body`).
-/

namespace AcsOutline

/-- A fault of a body that is never closed. -/
structure Fault.Unclosed (fault : Fault) (what : String) (opening : Span) : Prop where
  eq_openBody : fault = .openBody what opening
  code_text : fault.code.text = "E103"
  labels_eq : fault.labels = [.primary opening "body opened here"]

theorem Fault.unclosed_openBody (what : String) (opening : Span) :
    (openBody what opening).Unclosed what opening :=
  ⟨rfl, rfl, rfl⟩

namespace Grammar

open Reading

variable {s t : Scanner} {depth : Int} {n : Nat}

/-! ## Skipping -/

theorem skipTo_of_le (h : s.braces ≤ depth) (what : String) (opening : Span) :
    skipTo depth what opening s = .ok () s := by
  have hround : skipToRound depth what opening () s = .ok (.done ()) s := by
    show (if s.braces ≤ depth then pure (Round.done ()) else _ : Reading _) s = _
    rw [if_pos h]
    rfl
  rw [skipTo, loop_eq, hround]

theorem skipTo_of_lt (h : depth < s.braces) (what : String) (opening : Span) :
    skipTo depth what opening s =
      if s.next.token.kind = .eof then .error (.openBody what opening) s.next
      else skipTo depth what opening s.next := by
  have hround : skipToRound depth what opening () s =
      if s.next.token.kind = .eof then .error (.openBody what opening) s.next
      else .ok (.again ()) s.next := by
    show (if s.braces ≤ depth then pure (Round.done ()) else _ : Reading _) s = _
    rw [if_neg (by omega), next_bind]
    split <;> rfl
  rw [skipTo, loop_eq, hround]
  by_cases heof : s.next.token.kind = .eof
  · rw [if_pos heof, if_pos heof]
  · rw [if_neg heof, if_neg heof]

/-- **Tokens are skipped** up to the first one that brings the depth of braces back. -/
theorem skipTo_eq (what : String) (opening : Span)
    (hinner : ∀ i < n, depth < (s.ahead i).braces) (hend : (s.ahead n).braces ≤ depth) :
    skipTo depth what opening s = .ok () (s.ahead n) := by
  induction n generalizing s with
  | zero => exact skipTo_of_le hend what opening
  | succ n ih =>
    have hhere : depth < s.braces := hinner 0 (Nat.succ_pos n)
    have hne : s.next.token.kind ≠ .eof := by
      refine Scanner.kind_ahead_ne_eof (i := 0) (n := n + 1) (Nat.succ_pos n) ?_
      show (s.ahead (n + 1)).braces ≠ s.braces
      omega
    rw [skipTo_of_lt hhere, if_neg hne]
    exact ih (fun i hi => hinner (i + 1) (by omega)) hend

/-- **Where the braces stay deeper**, the end of input is reached. -/
theorem skipTo_error (s : Scanner) (what : String) (opening : Span)
    (h : ∀ n, depth < (s.ahead n).braces) :
    ∃ n, (s.ahead (n + 1)).token.kind = .eof ∧
      skipTo depth what opening s = .error (.openBody what opening) (s.ahead (n + 1)) := by
  have hhere : depth < s.braces := h 0
  by_cases heof : s.next.token.kind = .eof
  · refine ⟨0, heof, ?_⟩
    rw [skipTo_of_lt hhere, if_pos heof]
    rfl
  · obtain ⟨n, hn, hskip⟩ := skipTo_error s.next what opening fun n => h (n + 1)
    refine ⟨n + 1, hn, ?_⟩
    rw [skipTo_of_lt hhere, if_neg heof]
    exact hskip
termination_by s.remaining
decreasing_by exact Scanner.remaining_next_lt (Or.inr heof)

/-- At the end of input nothing is skipped. -/
theorem skipTo_of_eof (what : String) (opening : Span) (h : depth < s.next.braces)
    (heof : s.next.token.kind = .eof) :
    skipTo depth what opening s.next = .error (.openBody what opening) s.next := by
  rw [skipTo_of_lt h, Scanner.next_next_of_eof heof, if_pos heof]

/-! ## Bodies -/

/-- What becomes of a block whose opening brace is the current token, told by the tokens behind
the brace alone: it is read up to the brace that closes its own, or the input ends in it. -/
theorem skipTo_body (what : String) (opening : Span) (hs : s.token.kind = .lbrace) :
    (∀ n, s.ClosesAt n → skipTo s.bracesBefore what opening s = .ok () (s.ahead n)) ∧
      ((∀ n, ¬Token.CloseOne (s.next.run n)) → ∃ n, (s.ahead (n + 1)).token.kind = .eof ∧
        skipTo s.bracesBefore what opening s =
          .error (.openBody what opening) (s.ahead (n + 1))) := by
  have hbefore : s.bracesBefore = s.braces - 1 := by
    rw [Scanner.bracesBefore, hs]
    rfl
  constructor
  · intro n hn
    refine skipTo_eq what opening (fun i hi => ?_) ?_
    · have hinner := hn.le_braces hi
      omega
    · exact Int.le_of_eq (hn.bracesBefore_eq hs)
  · intro hnever
    refine skipTo_error s what opening fun n => ?_
    have hinner := Scanner.le_braces_of_not_closed hnever n
    omega

/-! ## Initialisers of arrays -/

theorem expect_of_lbrace (hopen : s.next.token.kind = .lbrace) (expected : String) :
    expect .lbrace expected s = .ok s.next.token s.next := by
  show check s.next.token .lbrace expected s.next = _
  rw [check_of_kind hopen (by decide)]
  rfl

theorem arrayInitializer_at_body (hopen : s.next.token.kind = .lbrace) :
    arrayInitializer s =
      (skipTo s.next.bracesBefore "array initializer" s.next.token.span >>= fun _ =>
        current >>= fun closing =>
          sourceText s.next.token.span.start closing.span.stop) s.next := by
  show (expect .lbrace _ >>= fun opening => skipTo s.braces _ opening.span >>= _) s = _
  rw [bind_of_ok (expect_of_lbrace hopen _), Scanner.bracesBefore_next]

/-! ## Initialisers of structs -/

/-- A round that reads a token. -/
theorem recordRound_of_ne (hne : s.next.token.kind ≠ .eof) (opening : Span)
    (found : List String) :
    recordRound depth opening found s =
      if s.next.braces = depth then .ok (.done found.reverse) s.next
      else if s.next.token.kind = .comma then .ok (.again found) s.next
      else .ok (.again (s.next.token.literal :: found)) s.next := by
  rw [recordRound, next_bind, if_neg hne]
  show (if s.next.braces = depth then _ else _ : Reading _) s.next = _
  by_cases hback : s.next.braces = depth
  · rw [if_pos hback, if_pos hback]
    rfl
  · rw [if_neg hback, if_neg hback]
    split <;> rfl

/-- **A round at the end of input fails** where the initialiser is still open. -/
theorem recordRound_of_eof (heof : s.next.token.kind = .eof) (h : depth < s.braces)
    (opening : Span) (found : List String) :
    recordRound depth opening found s =
      .error (.openBody "struct initializer" opening) s.next := by
  have hdeep : depth < s.next.braces := by
    rw [Scanner.braces_next, heof, show Scanner.braceStep .eof = 0 from rfl]
    omega
  rw [recordRound, next_bind, if_pos heof]
  exact bind_of_error (skipTo_of_eof "struct initializer" opening hdeep heof) _

/-- **What a round inside an initialiser reads**: one token before the end of input.  If there is
another round, it is inside of the initialiser too. -/
theorem recordRound_inside {opening : Span} {found : List String}
    {r : Round (List String) (List String)} (h : depth < s.braces)
    (hok : recordRound depth opening found s = .ok r t) :
    s.next.token.kind ≠ .eof ∧ t = s.next ∧
      ((∃ found', r = .again found') → depth < t.braces) := by
  by_cases heof : s.next.token.kind = .eof
  · rw [recordRound_of_eof heof h] at hok
    cases hok
  refine ⟨heof, ?_⟩
  -- one token changes the depth by one at most
  have hstep := Scanner.neg_one_le_braceStep s.next.token.kind
  have hbraces := s.braces_next
  rw [recordRound_of_ne heof] at hok
  split at hok
  · cases hok
    exact ⟨rfl, nofun⟩
  next hback => split at hok <;> cases hok <;> exact ⟨rfl, fun _ => by omega⟩

/-- The rounds of an initialiser after earlier ones. -/
def recordFrom (depth : Int) (opening : Span) (found : List String) : Reading (List String) :=
  loop (recordRound depth opening) (recordRound_progresses depth opening) found

theorem recordFrom_eq (hne : s.next.token.kind ≠ .eof) (opening : Span) (found : List String) :
    recordFrom depth opening found s =
      if s.next.braces = depth then .ok found.reverse s.next
      else if s.next.token.kind = .comma then recordFrom depth opening found s.next
      else recordFrom depth opening (s.next.token.literal :: found) s.next := by
  rw [recordFrom, loop_eq, recordRound_of_ne hne]
  by_cases hback : s.next.braces = depth
  · rw [if_pos hback, if_pos hback]
  · rw [if_neg hback, if_neg hback]
    by_cases hcomma : s.next.token.kind = .comma
    · rw [if_pos hcomma, if_pos hcomma]
    · rw [if_neg hcomma, if_neg hcomma]
      rfl

/-- An initialiser that is still open at the end of input fails as a body does. -/
theorem recordFrom_of_eof (heof : s.next.token.kind = .eof) (h : depth < s.braces)
    (opening : Span) (found : List String) :
    recordFrom depth opening found s =
      .error (.openBody "struct initializer" opening) s.next := by
  rw [recordFrom, loop_eq, recordRound_of_eof heof h]

/-! ## How deep the braces are before a body -/

/-- The word `clientside` is no brace. -/
theorem bracesBefore_takeClientside {isClientside : Bool}
    (h : takeClientside s = .ok isClientside t) : t.bracesBefore = s.braces := by
  rw [takeClientside, next_bind] at h
  split at h
  next hword =>
    cases h
    have hkind : s.next.token.kind = .symbol := beq_iff_eq.1 ((Bool.and_eq_true _ _).mp hword).1
    rw [Scanner.bracesBefore_next, Scanner.braces_next, hkind]
    exact Int.add_zero _
  · cases h
    exact s.bracesBefore_next

/-- **A function knows the depth before its body**, whatever its parameters are. -/
theorem depth_functionSignature {isPrivate : Bool} {f : FunctionDecl}
    (h : functionSignature isPrivate s = .ok (f, depth) t) : depth = t.bracesBefore := by
  obtain ⟨_, _, -, h⟩ := bind_eq_ok.1 h
  obtain ⟨_, _, -, h⟩ := bind_eq_ok.1 h
  obtain ⟨_, _, -, h⟩ := bind_eq_ok.1 h
  obtain ⟨_, _, -, h⟩ := bind_eq_ok.1 h
  obtain ⟨ps, u, -, h⟩ := bind_eq_ok.1 h
  obtain ⟨_, _, hdepth, h⟩ := bind_eq_ok.1 h
  cases hdepth
  obtain ⟨isClientside, v, hclientside, h⟩ := bind_eq_ok.1 h
  cases h
  exact (bracesBefore_takeClientside hclientside).symm

theorem depth_scriptParameters {ps : List ScriptParameter}
    (h : scriptParameters s = .ok (ps, depth) t) : depth = t.bracesBefore := by
  obtain ⟨_, _, hdepth, h⟩ := bind_eq_ok.1 h
  cases hdepth
  rw [next_bind] at h
  split at h
  · obtain ⟨ps, u, -, h⟩ := bind_eq_ok.1 h
    obtain ⟨_, _, hdepth, h⟩ := bind_eq_ok.1 h
    cases hdepth
    cases h
    exact u.bracesBefore_next.symm
  · cases h
    exact s.bracesBefore_next.symm

/-- The rounds for the words before the body of a script, after some of them. -/
def modifiersFrom (m : Modifiers) (depth : Int) : Reading (Modifiers × Int) :=
  loop modifierRound modifierRound_progresses (m, depth)

/-- **A script knows the depth before its body**, however many words stand before it. -/
theorem depth_modifiers {m : Modifiers} {depth' : Int} (hs : depth = s.bracesBefore)
    (h : modifiers depth s = .ok (m, depth') t) :
    t.token.kind = .lbrace ∧ depth' = t.bracesBefore := by
  refine Meets.ok (p := modifiers depth) (E := fun _ _ => True)
    (Q := fun r t => t.token.kind = .lbrace ∧ r.2 = t.bracesBefore) ?_ h
  -- before every round the depth is that before the current token
  refine meets_loop (I := fun state u => state.2 = u.bracesBefore) _ (fun state u hu => ?_) hs
  show (if u.token.kind = .lbrace then _ else _ :
    Reading (Round (Modifiers × Int) (Modifiers × Int))).Meets u _ _
  refine .ite (fun hopen => meets_pure ⟨hopen, hu⟩) fun _ => .ite (fun _ => ?_) fun _ =>
    meets_throw trivial
  refine Meets.bind (Q := fun _ v => v = u) ?_ fun m' v hv => ?_
  · cases state.1.add u.token with
    | ok m' => exact meets_pure rfl
    | error fault => exact meets_throw trivial
  · subst hv
    exact (Scanner.bracesBefore_next v).symm

end Grammar

end AcsOutline
