import AcsOutline.Proofs.Grammar.Blocks

/-!
# The two readings of initialisers

An initialiser in braces is read as an array, of which the text is kept, or as a struct, of which
the tokens are.  Both readings end at the same brace, or at the end of input with a fault at the
opening one (`initializers_agree`).  A struct keeps every token in between but the commas, with
those of inner braces (`recordFrom_run`).
-/

namespace AcsOutline.Grammar

open Reading

variable {s : Scanner} {depth : Int} {n : Nat}

/-- The tokens of an initialiser that a struct keeps, as they are written. -/
def keptLiterals (ts : List Token) : List String :=
  (ts.filter (·.kind ≠ .comma)).map Token.literal

/-- **A struct keeps the tokens** up to the first one that brings the depth of braces back. -/
theorem recordFrom_run (opening : Span) (found : List String)
    (hinner : ∀ i ≤ n, depth < (s.ahead i).braces) (hend : (s.ahead (n + 1)).braces = depth) :
    recordFrom depth opening found s =
      .ok (found.reverse ++ keptLiterals (s.next.run n)) (s.ahead (n + 1)) := by
  induction n generalizing s found with
  | zero =>
    have hback : s.next.braces = depth := hend
    have hne : s.next.token.kind ≠ .eof := by
      refine Scanner.kind_ahead_ne_eof (i := 0) (n := 1) Nat.one_pos ?_
      have hhere : depth < s.braces := hinner 0 (Nat.le_refl 0)
      show s.next.braces ≠ s.braces
      omega
    rw [recordFrom_eq hne, if_pos hback]
    show _ = EStateM.Result.ok (found.reverse ++ []) s.next
    rw [List.append_nil]
  | succ n ih =>
    have hne : s.next.token.kind ≠ .eof := by
      refine Scanner.kind_ahead_ne_eof (i := 0) (n := n + 2) (by omega) ?_
      have hhere : depth < s.braces := hinner 0 (by omega)
      show (s.ahead (n + 1 + 1)).braces ≠ s.braces
      omega
    have hdeep : s.next.braces ≠ depth := by
      have hnext : depth < s.next.braces := hinner 1 (by omega)
      omega
    have hlater : ∀ found, recordFrom depth opening found s.next =
        .ok (found.reverse ++ keptLiterals (s.next.next.run n)) (s.ahead (n + 2)) :=
      fun found => ih found (fun i hi => hinner (i + 1) (by omega)) hend
    rw [recordFrom_eq hne, if_neg hdeep, Scanner.run]
    by_cases hcomma : s.next.token.kind = .comma
    · rw [if_pos hcomma, hlater, keptLiterals, keptLiterals,
        List.filter_cons_of_neg (by simpa using hcomma)]
    · rw [if_neg hcomma, hlater, keptLiterals, keptLiterals,
        List.filter_cons_of_pos (by simpa using hcomma), List.map_cons, List.reverse_cons,
        List.append_assoc]
      rfl

/-- **Where the braces stay deeper**, a struct is read up to the end of input. -/
theorem recordFrom_error (s : Scanner) (opening : Span) (found : List String)
    (h : ∀ n, depth < (s.ahead n).braces) :
    ∃ n, (s.ahead (n + 1)).token.kind = .eof ∧ recordFrom depth opening found s =
      .error (.openBody "struct initializer" opening) (s.ahead (n + 1)) := by
  by_cases heof : s.next.token.kind = .eof
  · exact ⟨0, heof, recordFrom_of_eof heof (h 0) opening found⟩
  have hdeep : s.next.braces ≠ depth := by
    have hnext : depth < s.next.braces := h 1
    omega
  have hlater : ∀ found, ∃ n, (s.next.ahead (n + 1)).token.kind = .eof ∧
      recordFrom depth opening found s.next =
        .error (.openBody "struct initializer" opening) (s.next.ahead (n + 1)) :=
    fun found => recordFrom_error s.next opening found fun n => h (n + 1)
  rw [recordFrom_eq heof, if_neg hdeep]
  by_cases hcomma : s.next.token.kind = .comma
  · rw [if_pos hcomma]
    obtain ⟨n, hn, hrecord⟩ := hlater found
    exact ⟨n + 1, hn, hrecord⟩
  · rw [if_neg hcomma]
    obtain ⟨n, hn, hrecord⟩ := hlater (s.next.token.literal :: found)
    exact ⟨n + 1, hn, hrecord⟩
termination_by s.remaining
decreasing_by exact Scanner.remaining_next_lt (Or.inr heof)

theorem recordInitializer_at_block (hopen : s.next.token.kind = .lbrace) :
    recordInitializer s = recordFrom s.braces s.next.token.span [] s.next := by
  show (advance >>= fun opening => recordFrom s.braces opening.span []) s = _
  rw [advance_bind, if_neg (by rw [hopen]; decide)]

/-- The results of the two readings of one initialiser, whose opening brace is the current token
of `o`. -/
inductive InitializersAgree (o : Scanner) :
    Reading.Result String → Reading.Result (List String) → Prop where
  /-- Both end at the brace that closes the initialiser, and a struct keeps what is in between. -/
  | closed {n : Nat} {text : String} {values : List String} (hcloses : o.ClosesAt (n + 1))
      (hkind : (o.ahead (n + 1)).token.kind = .rbrace)
      (hvalues : values = keptLiterals (o.next.run n)) :
      InitializersAgree o (.ok text (o.ahead (n + 1))) (.ok values (o.ahead (n + 1)))
  /-- Both end at the end of input. -/
  | unclosed {t : Scanner} {fault fault' : Fault} (heof : t.token.kind = .eof)
      (hfault : fault.Unclosed "array initializer" o.token.span)
      (hfault' : fault'.Unclosed "struct initializer" o.token.span) :
      InitializersAgree o (.error fault t) (.error fault' t)

/-- **The two readings of an initialiser agree**, wherever one begins. -/
theorem initializers_agree (hopen : s.next.token.kind = .lbrace) :
    InitializersAgree s.next (arrayInitializer s) (recordInitializer s) := by
  have hone : s.next.braces = s.braces + 1 := by
    rw [Scanner.braces_next, hopen]
    rfl
  obtain ⟨hcloses, hnever⟩ := skipTo_body "array initializer" s.next.token.span hopen
  rw [arrayInitializer_at_body hopen, recordInitializer_at_block hopen]
  by_cases h : ∃ n, Token.CloseOne (s.next.next.run n)
  · obtain ⟨n, hn⟩ := Scanner.exists_closesAt h
    obtain ⟨m, rfl⟩ := Nat.exists_eq_add_one.2 hn.pos
    have hinner : ∀ i ≤ m, s.braces < (s.next.ahead i).braces := by
      intro i hi
      have hdeep := hn.le_braces (Nat.lt_succ_of_le hi)
      omega
    have hback : (s.next.ahead (m + 1)).braces = s.braces := by
      rw [hn.braces_eq, hone]
      omega
    rw [bind_of_ok (hcloses _ hn), recordFrom_run _ _ hinner hback]
    exact .closed hn hn.kind_eq rfl
  · have hopened : ∀ n, ¬Token.CloseOne (s.next.next.run n) := fun n hn => h ⟨n, hn⟩
    have hdeep : ∀ n, s.braces < (s.next.ahead n).braces := by
      intro n
      have hle := Scanner.le_braces_of_not_closed hopened n
      omega
    obtain ⟨n, hn, hskip⟩ := hnever hopened
    obtain ⟨m, hm, hrecord⟩ := recordFrom_error s.next s.next.token.span [] hdeep
    rw [bind_of_error hskip, hrecord, Scanner.ahead_eq_of_eof hm hn]
    exact .unclosed hn (Fault.unclosed_openBody _ _) (Fault.unclosed_openBody _ _)

/-- Both readings of an initialiser with inner braces, with strings and with a comment. -/
theorem initializers_agree_nested :
    (let s := (Scanner.ofString "= \x7b 1, \x7b \"\x7d\" \x7d /* \x7d */ \x7d;").next;
      InitializersAgree s.next (arrayInitializer s) (recordInitializer s) ∧
        recordInitializer s = .ok ["1", "\x7b", "\"\x7d\"", "\x7d"] (s.ahead 7)) ∧
    (let s := (Scanner.ofString "= \x7b \x7b 1 \x7d, 2").next;
      InitializersAgree s.next (arrayInitializer s) (recordInitializer s) ∧
        ∃ fault, arrayInitializer s = .error fault (s.ahead 7)) := by
  refine ⟨?_, ?_⟩
  · intro s
    have hopen : s.next.token.kind = .lbrace := by decide +kernel
    exact ⟨initializers_agree hopen, by decide +kernel⟩
  · intro s
    have hopen : s.next.token.kind = .lbrace := by decide +kernel
    have hfault : arrayInitializer s =
        .error (.openBody "array initializer" s.next.token.span) (s.ahead 7) := by
      decide +kernel
    exact ⟨initializers_agree hopen, _, hfault⟩

end AcsOutline.Grammar
