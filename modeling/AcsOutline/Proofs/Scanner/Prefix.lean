import AcsOutline.Proofs.Scanner.Reread

/-!
# Texts that go on

What stands at the start of a text does not depend on what follows far behind it.  Where a text
is read as part of a longer one, and no more than the text itself is taken, the text alone is
read the same way (`read_of_append`).  The other way round, what is read from the text alone is
read from the longer one as well, as long as it does not reach the end of the text
(`read_append_right`); punctuation may even stand there, since it never goes on.

The same holds for the trivia under any mask.
-/

namespace AcsOutline

namespace Lexeme

variable {c : Char} {cs after : List Char}

/-! ## Runs of characters -/

theorem takeWhile_append_of_lt {p : Char → Bool} (h : (cs.takeWhile p).length < cs.length)
    (after : List Char) : (cs ++ after).takeWhile p = cs.takeWhile p := by
  rw [List.takeWhile_append, if_neg (Nat.ne_of_lt h)]

theorem takeWhile_of_append {p : Char → Bool}
    (h : ((cs ++ after).takeWhile p).length ≤ cs.length) :
    (cs ++ after).takeWhile p = cs.takeWhile p := by
  rw [List.takeWhile_append] at h ⊢
  by_cases hall : (cs.takeWhile p).length = cs.length
  · rw [if_pos hall] at h ⊢
    rw [List.length_append] at h
    have hnil : after.takeWhile p = [] := List.length_eq_zero_iff.1 (by omega)
    rw [hnil, List.append_nil]
    exact ((List.takeWhile_prefix p).eq_of_length hall).symm
  · rw [if_neg hall]

theorem head?_append_of_lt {n : Nat} (h : n < cs.length) (after : List Char) :
    (cs ++ after).head? = cs.head? := by
  cases cs with
  | nil => exact absurd h (Nat.not_lt_zero n)
  | cons c cs => rfl

/-! ## What the first character leaves open -/

/-- How a character begins a lexeme, whatever follows it. -/
inductive Lead (c : Char) : Prop
  | single (kind : TokenKind) (h : ∀ cs, extent c cs = (kind, 0))
  | carriageReturn
      (h : ∀ cs, extent c cs = (.newline, if cs.head? = some '\n' then 1 else 0))
  | slash (h : ∀ cs, extent c cs =
      if cs.head? = some '/' then (.lineCommentStart, 1)
      else if cs.head? = some '*' then (.blockCommentStart, 1) else (.symbol, 0))
  | star (h : ∀ cs, extent c cs =
      if cs.head? = some '/' then (.blockCommentEnd, 1) else (.symbol, 0))
  | quote (h : ∀ cs, extent c cs = (.string, (cs.takeWhile (· ≠ '"')).length + 1))
  | digit (h : ∀ cs, extent c cs = (.number, (cs.takeWhile isNumberChar).length))
  | dash (h : ∀ cs, extent c cs =
      if cs.head?.any Char.isDigit then (.number, (cs.takeWhile isNumberChar).length)
      else (.dash, 0))
  | word (h : ∀ cs, extent c cs =
      (.ofWord (String.ofList (c :: cs.takeWhile isWordChar)), (cs.takeWhile isWordChar).length))

theorem lead (c : Char) : Lead c := by
  cases hlookup : punctuation.lookup c with
  | some kind => exact .single kind (extent_of_lookup hlookup)
  | none =>
    by_cases hfeed : c = '\n'
    · subst hfeed
      exact .single .newline fun cs => by simp [extent, hlookup]
    by_cases hreturn : c = '\r'
    · subst hreturn
      exact .carriageReturn fun cs => by simp [extent, hlookup]
    by_cases hblank : Text.isBlank c = true
    · exact .single .whitespace fun cs => by simp [extent, hlookup, hfeed, hreturn, hblank]
    by_cases hword : isWordChar c = true
    · by_cases hdigit : c.isDigit = true
      · exact .digit fun cs => by rw [extent_of_isWordChar hword, if_pos hdigit]
      · exact .word fun cs => by rw [extent_of_isWordChar hword, if_neg hdigit]
    by_cases hquote : c = '"'
    · subst hquote
      exact .quote extent_quote
    by_cases hdash : c = '-'
    · subst hdash
      refine .dash fun cs => ?_
      by_cases hdigit : cs.head?.any Char.isDigit = true
      · rw [if_pos hdigit, extent_sign hdigit]
      · rw [if_neg hdigit, extent_dash hdigit]
    have hdigit : ¬c.isDigit = true := fun h => hword (isWordChar_of_isDigit h)
    by_cases hslash : c = '/'
    · subst hslash
      exact .slash fun cs => by simp [extent, hlookup, hblank, hword]
    by_cases hstar : c = '*'
    · subst hstar
      exact .star fun cs => by simp [extent, hlookup, hblank, hword]
    · exact .single .symbol fun cs => by
        simp [extent, hlookup, hfeed, hreturn, hblank, hword, hquote, hdash, hslash, hstar, hdigit]

/-- A lexeme that ends before its text does is the same where the text goes on. -/
theorem extent_append_of_lt (h : (extent c cs).2 < cs.length) (after : List Char) :
    extent c (cs ++ after) = extent c cs := by
  have hhead := head?_append_of_lt h after
  rcases lead c with ⟨kind, hc⟩ | hc | hc | hc | hc | hc | hc | hc <;> rw [hc] at h <;> rw [hc, hc]
  · rw [hhead]
  · rw [hhead]
  · rw [hhead]
  · rw [takeWhile_append_of_lt (Nat.lt_of_succ_lt h)]
  · rw [takeWhile_append_of_lt h]
  · rw [hhead]
    split at h
    · rw [takeWhile_append_of_lt h]
    next hdigit => rw [if_neg hdigit, if_neg hdigit]
  · rw [takeWhile_append_of_lt h]

/-- A lexeme that takes no more than a first part of its text is the same in that part alone. -/
theorem extent_of_append (h : (extent c (cs ++ after)).2 ≤ cs.length) :
    extent c (cs ++ after) = extent c cs := by
  cases cs with
  | cons d cs =>
    have hhead : (d :: cs ++ after).head? = (d :: cs).head? := rfl
    rcases lead c with ⟨_, hc⟩ | hc | hc | hc | hc | hc | hc | hc <;> rw [hc] at h <;> rw [hc, hc]
    · rw [hhead]
    · rw [hhead]
    · rw [hhead]
    · rw [takeWhile_of_append (Nat.le_of_succ_le h)]
    · rw [takeWhile_of_append h]
    · rw [hhead] at h ⊢
      split at h
      · rw [takeWhile_of_append h]
      next hdigit => rw [if_neg hdigit, if_neg hdigit]
    · rw [takeWhile_of_append h]
  | nil =>
    -- the lexeme is its first character alone, so nothing after it made a difference
    rw [List.nil_append] at h ⊢
    have hnil : ∀ p : Char → Bool, (after.takeWhile p).length ≤ 0 → after.takeWhile p = [] :=
      fun p hp => List.length_eq_zero_iff.1 (Nat.le_zero.1 hp)
    rcases lead c with ⟨_, hc⟩ | hc | hc | hc | hc | hc | hc | hc <;> rw [hc] at h <;> rw [hc, hc]
    · split at h
      · exact absurd h (by decide)
      next hfeed => rw [if_neg hfeed, if_neg (by simp)]
    · split at h
      · exact absurd h (by decide)
      next hline =>
        split at h
        · exact absurd h (by decide)
        next hblock => rw [if_neg hline, if_neg hblock, if_neg (by simp), if_neg (by simp)]
    · split at h
      · exact absurd h (by decide)
      next hend => rw [if_neg hend, if_neg (by simp)]
    · exact absurd h (Nat.not_succ_le_zero _)
    · rw [hnil _ h]
      rfl
    · split at h
      next hany =>
        obtain ⟨d, hd, hdigit⟩ := (Option.any_eq_true _ _).1 hany
        obtain ⟨rest, rfl⟩ := List.head?_eq_some_iff.1 hd
        have hnumber : isNumberChar d = true := by simp [isNumberChar, hdigit]
        rw [List.takeWhile_cons_of_pos hnumber] at h
        exact absurd h (Nat.not_succ_le_zero _)
      next hdigit => rw [if_neg hdigit, if_neg (by simp)]
    · rw [hnil _ h]
      rfl

/-! ## Lexemes -/

/-- **What is read as part of a longer text** is read from the part alone, if what is taken lies
in it. -/
theorem read_of_append {l : Lexeme} {rest : List Char}
    (h : read (cs ++ after) = (l, rest ++ after)) : read cs = (l, rest) := by
  cases cs with
  | nil =>
    -- what is left is no shorter than the text, so nothing was taken
    have happ := read_append ([] ++ after)
    rw [h, List.nil_append] at happ
    have hlen : (l.spelling ++ (rest ++ after)).length = after.length := congrArg _ happ
    rw [List.length_append, List.length_append] at hlen
    have hrest : rest = [] := List.length_eq_zero_iff.1 (by omega)
    have hspelling : l.spelling = [] := List.length_eq_zero_iff.1 (by omega)
    have hkind : l.kind = .eof := by
      have := (spelling_eq_nil_iff ([] ++ after)).1 (by rw [h]; exact hspelling)
      rwa [h] at this
    obtain ⟨kind, spelling⟩ := l
    subst hrest hspelling hkind
    rfl
  | cons c cs =>
    by_cases hnul : c = '\x00'
    · simp only [List.cons_append, read, hnul, if_true, Prod.mk.injEq] at h ⊢
      obtain ⟨hl, hrest⟩ := h
      exact ⟨hl, List.append_cancel_right hrest⟩
    · rw [List.cons_append, read_cons hnul] at h
      obtain ⟨hl, hrest⟩ := Prod.mk.inj h
      by_cases hn : (extent c (cs ++ after)).2 ≤ cs.length
      · rw [extent_of_append hn] at hl hrest hn
        rw [read_cons hnul]
        rw [List.take_append_of_le_length hn] at hl
        rw [List.drop_append_of_le_length hn] at hrest
        rw [hl, List.append_cancel_right hrest]
      · -- only nothing is left behind the end of the text
        have hlen := congrArg List.length hrest
        rw [List.length_drop, List.length_append, List.length_append] at hlen
        have hafter : after = [] := List.length_eq_zero_iff.1 (by omega)
        subst hafter
        rw [List.append_nil] at hl hrest
        rw [read_cons hnul, hl, hrest, List.append_nil]

/-- **What is read from a text** is read where the text goes on, if it stops before the end of
the text or is punctuation. -/
theorem read_append_right
    (h : (read cs).2 ≠ [] ∨ ∃ c, (c, (read cs).1.kind) ∈ punctuation) (after : List Char) :
    read (cs ++ after) = ((read cs).1, (read cs).2 ++ after) := by
  cases cs with
  | nil =>
    rcases h with h | ⟨c, h⟩
    · exact absurd rfl h
    · exact absurd rfl (kind_ne_eof_of_mem h)
  | cons c cs =>
    by_cases hnul : c = '\x00'
    · simp only [List.cons_append, read, hnul, if_true]
    · rw [read_cons hnul] at h
      rw [List.cons_append, read_cons hnul, read_cons hnul]
      have hn : extent c (cs ++ after) = extent c cs ∧ (extent c cs).2 ≤ cs.length := by
        rcases h with h | ⟨d, h⟩
        · have hlt : (extent c cs).2 < cs.length := by
            have := List.length_pos_iff.2 h
            rw [List.length_drop] at this
            omega
          exact ⟨extent_append_of_lt hlt after, Nat.le_of_lt hlt⟩
        · obtain ⟨rfl, hzero⟩ := extent_eq_of_mem h
          have hall : ∀ p ∈ punctuation, punctuation.lookup p.1 = some p.2 := by decide
          have hlookup : punctuation.lookup c = some (extent c cs).1 := hall (c, _) h
          refine ⟨?_, by omega⟩
          rw [extent_of_lookup hlookup (cs ++ after), ← hzero]
      rw [hn.1, List.take_append_of_le_length hn.2, List.drop_append_of_le_length hn.2]

end Lexeme

/-! ## Trivia -/

namespace Trivia

open Lexeme

variable {mask : SkipMask} {c : Char} {cs after : List Char}

/-- A comment with text after its first character goes on there as it would on its own. -/
theorem commentBody_cons_append (hne : ∀ rest, c = '*' → cs = '/' :: rest → False) (hcs : cs ≠ [])
    (after : List Char) : commentBody (c :: cs ++ after) = c :: commentBody (cs ++ after) := by
  obtain ⟨d, ds, rfl⟩ := List.exists_cons_of_ne_nil hcs
  rw [List.cons_append, commentBody.eq_3]
  intro rest hc hrest
  exact hne ds hc (congrArg (· :: ds) (List.cons.inj hrest).1)

/-- A comment that is closed within its text holds the same where the text goes on. -/
theorem commentBody_append_of_le (h : (commentBody cs).length + 2 ≤ cs.length)
    (after : List Char) : commentBody (cs ++ after) = commentBody cs := by
  fun_induction commentBody cs with
  | case1 => exact absurd h (by decide)
  | case2 rest => rfl
  | case3 c cs hne ih =>
    rw [List.length_cons, List.length_cons] at h
    have hcs : cs ≠ [] := by
      rintro rfl
      exact absurd h (by simp)
    rw [commentBody_cons_append hne hcs, ih (by omega)]

/-- A comment that is closed within a first part of its text holds the same in that part
alone. -/
theorem commentBody_of_append (h : (commentBody (cs ++ after)).length + 2 ≤ cs.length) :
    commentBody (cs ++ after) = commentBody cs := by
  fun_induction commentBody cs with
  | case1 => exact absurd h (Nat.not_succ_le_zero _)
  | case2 rest => rfl
  | case3 c cs hne ih =>
    rw [List.length_cons] at h
    have hcs : cs ≠ [] := by
      rintro rfl
      exact absurd h (by simp)
    rw [commentBody_cons_append hne hcs] at h ⊢
    rw [List.length_cons] at h
    rw [ih (by omega)]

/-- How a character begins trivia under a mask, whatever follows it. -/
inductive Lead (mask : SkipMask) (c : Char) : Prop
  | none (h : ∀ cs, extent mask c cs = none)
  | single (kind : TriviaKind) (h : ∀ cs, extent mask c cs = some (kind, 0))
  | carriageReturn
      (h : ∀ cs, extent mask c cs = some (.newline, if cs.head? = some '\n' then 1 else 0))
  | slash (hc : c = '/') (h : ∀ cs, extent mask c cs =
      if mask.lineComments ∧ cs.head? = some '/' then
        some (.lineComment, (cs.tail.takeWhile (!isBreak ·)).length + 1)
      else if mask.blockComments ∧ cs.head? = some '*' then
        some (.blockComment, (commentBody cs.tail).length + 3)
      else Option.none)

theorem lead (mask : SkipMask) (c : Char) : Lead mask c := by
  by_cases hfeed : mask.newlines ∧ c = '\n'
  · exact .single .newline fun cs => by rw [extent, if_pos hfeed]
  by_cases hreturn : mask.newlines ∧ c = '\r'
  · exact .carriageReturn fun cs => by rw [extent, if_neg hfeed, if_pos hreturn]
  by_cases hblank : mask.blanks ∧ Text.isBlank c ∧ !isBreak c
  · exact .single .whitespace fun cs => by
      rw [extent, if_neg hfeed, if_neg hreturn, if_pos hblank]
  by_cases hslash : c = '/'
  · exact .slash hslash fun cs => by
      rw [extent, if_neg hfeed, if_neg hreturn, if_neg hblank]
      simp only [hslash, true_and]
  · exact .none fun cs => by
      rw [extent, if_neg hfeed, if_neg hreturn, if_neg hblank]
      simp only [hslash, false_and, and_false, if_false]

/-- What begins a text that has a further character is trivia, or none, also where the text goes
on; trivia takes as much there if it ends before the text does. -/
theorem extent_append_of_lt {n : Nat} (hn : n < cs.length)
    (h : ∀ e, extent mask c cs = some e → e.2 = n) (after : List Char) :
    extent mask c (cs ++ after) = extent mask c cs := by
  obtain ⟨d, ds, rfl⟩ :=
    List.exists_cons_of_ne_nil (List.ne_nil_of_length_pos (Nat.zero_lt_of_lt hn))
  have hhead : (d :: ds ++ after).head? = (d :: ds).head? := rfl
  have htail : (d :: ds ++ after).tail = ds ++ after := rfl
  rw [List.length_cons] at hn
  rcases lead mask c with hc | ⟨_, hc⟩ | hc | ⟨-, hc⟩
  · rw [hc, hc]
  · rw [hc, hc]
  · rw [hc, hc, hhead]
  · rw [hc] at h
    rw [hc, hc, hhead, htail]
    split at h
    next hline =>
      have hlen := h _ rfl
      dsimp only [List.tail_cons] at hlen
      rw [if_pos hline, if_pos hline, takeWhile_append_of_lt (by omega)]
      rfl
    next hline =>
      rw [if_neg hline, if_neg hline]
      split at h
      next hblock =>
        have hlen := h _ rfl
        dsimp only [List.tail_cons] at hlen
        rw [if_pos hblock, if_pos hblock, commentBody_append_of_le (by omega)]
        rfl
      next hblock => rw [if_neg hblock, if_neg hblock]

/-- Trivia that takes no more than a first part of its text, and no trivia at all, are the same
in that part alone. -/
theorem extent_of_append (h : ∀ e, extent mask c (cs ++ after) = some e → e.2 ≤ cs.length) :
    extent mask c (cs ++ after) = extent mask c cs := by
  cases cs with
  | cons d cs =>
    have hhead : (d :: cs ++ after).head? = (d :: cs).head? := rfl
    have htail : (d :: cs ++ after).tail = cs ++ after := rfl
    rw [List.length_cons] at h
    rcases lead mask c with hc | ⟨_, hc⟩ | hc | ⟨-, hc⟩
    · rw [hc, hc]
    · rw [hc, hc]
    · rw [hc, hc, hhead]
    · rw [hc, hhead, htail] at h
      rw [hc, hc, hhead, htail]
      split at h
      next hline =>
        have hlen := h _ rfl
        dsimp only at hlen
        rw [if_pos hline, if_pos hline, takeWhile_of_append (by omega)]
        rfl
      next hline =>
        rw [if_neg hline, if_neg hline]
        split at h
        next hblock =>
          have hlen := h _ rfl
          dsimp only at hlen
          rw [if_pos hblock, if_pos hblock, commentBody_of_append (by omega)]
          rfl
        next hblock => rw [if_neg hblock, if_neg hblock]
  | nil =>
    rw [List.nil_append] at h ⊢
    rcases lead mask c with hc | ⟨_, hc⟩ | hc | ⟨-, hc⟩ <;> rw [hc] at h <;> rw [hc, hc]
    · split at h
      · exact absurd (h _ rfl) (by decide)
      next hfeed => rw [if_neg hfeed, if_neg (by simp)]
    · split at h
      · exact absurd (h _ rfl) (Nat.not_succ_le_zero _)
      next hline =>
        split at h
        · exact absurd (h _ rfl) (Nat.not_succ_le_zero _)
        next hblock => rw [if_neg hline, if_neg hblock, if_neg (by simp), if_neg (by simp)]

theorem read?_cons_eq_some {kind : TriviaKind} {spelling rest : List Char} :
    read? mask (c :: cs) = some (kind, spelling, rest) ↔
      ∃ n, extent mask c cs = some (kind, n) ∧ c :: cs.take n = spelling ∧ cs.drop n = rest := by
  rw [read?, Option.map_eq_some_iff]
  constructor
  · rintro ⟨⟨k, n⟩, hextent, h⟩
    obtain ⟨rfl, hspelling, hrest⟩ : k = kind ∧ _ ∧ _ := by simpa using h
    exact ⟨n, hextent, hspelling, hrest⟩
  · rintro ⟨n, hextent, rfl, rfl⟩
    exact ⟨(kind, n), hextent, rfl⟩

theorem read?_cons_eq_none : read? mask (c :: cs) = none ↔ extent mask c cs = none := by
  rw [read?, Option.map_eq_none_iff]

/-- **Trivia that is read as part of a longer text** is read from the part alone, if it lies in
it. -/
theorem read?_of_append {kind : TriviaKind} {spelling rest : List Char}
    (h : read? mask (cs ++ after) = some (kind, spelling, rest ++ after)) :
    read? mask cs = some (kind, spelling, rest) := by
  cases cs with
  | nil =>
    have hlt := read?_rest_length h
    rw [List.nil_append, List.length_append] at hlt
    omega
  | cons c cs =>
    rw [List.cons_append, read?_cons_eq_some] at h
    obtain ⟨n, hextent, hspelling, hrest⟩ := h
    refine read?_cons_eq_some.2 ⟨n, ?_⟩
    by_cases hn : n ≤ cs.length
    · rw [List.drop_append_of_le_length hn] at hrest
      rw [List.take_append_of_le_length hn] at hspelling
      rw [extent_of_append fun e he => ?_] at hextent
      · exact ⟨hextent, hspelling, List.append_cancel_right hrest⟩
      · rw [hextent] at he
        cases he
        exact hn
    · -- only nothing is left behind the end of the text
      have hlen := congrArg List.length hrest
      rw [List.length_drop, List.length_append, List.length_append] at hlen
      have hafter : after = [] := List.length_eq_zero_iff.1 (by omega)
      subst hafter
      rw [List.append_nil] at hextent hrest hspelling
      rw [List.append_nil] at hrest
      exact ⟨hextent, hspelling, hrest⟩

theorem read?_eq_none_of_append (h : read? mask (cs ++ after) = none) : read? mask cs = none := by
  cases cs with
  | nil => rfl
  | cons c cs =>
    rw [List.cons_append, read?_cons_eq_none] at h
    rw [read?_cons_eq_none, ← extent_of_append fun e he => ?_, h]
    rw [h] at he
    cases he

/-- **Trivia of a text** is trivia where the text goes on, if there is more of the text after
it. -/
theorem read?_append_right {kind : TriviaKind} {spelling rest : List Char}
    (h : read? mask cs = some (kind, spelling, rest)) (hrest : rest ≠ []) (after : List Char) :
    read? mask (cs ++ after) = some (kind, spelling, rest ++ after) := by
  cases cs with
  | nil => cases h
  | cons c cs =>
    obtain ⟨n, hextent, rfl, rfl⟩ := read?_cons_eq_some.1 h
    have hn : n < cs.length := by
      have := List.length_pos_iff.2 hrest
      rw [List.length_drop] at this
      omega
    rw [List.cons_append, read?_cons_eq_some]
    refine ⟨n, ?_, ?_, ?_⟩
    · rw [extent_append_of_lt hn fun e he => ?_, hextent]
      rw [hextent] at he
      cases he
      rfl
    · rw [List.take_append_of_le_length (Nat.le_of_lt hn)]
    · rw [List.drop_append_of_le_length (Nat.le_of_lt hn)]

/-- A text without trivia at its start has none where it goes on, if there is more of the text
after its first lexeme, or if that is punctuation. -/
theorem read?_append_eq_none (h : read? mask cs = none)
    (hrest : (Lexeme.read cs).2 ≠ [] ∨ ∃ c, (c, (Lexeme.read cs).1.kind) ∈ punctuation)
    (after : List Char) : read? mask (cs ++ after) = none := by
  cases cs with
  | nil =>
    rcases hrest with hrest | ⟨c, hrest⟩
    · exact absurd rfl hrest
    · exact absurd rfl (kind_ne_eof_of_mem hrest)
  | cons c cs =>
    rw [read?_cons_eq_none] at h
    rw [List.cons_append, read?_cons_eq_none]
    rcases lead mask c with hc | ⟨_, hc⟩ | hc | ⟨rfl, hc⟩
    · exact hc _
    · rw [hc] at h
      cases h
    · rw [hc] at h
      cases h
    · -- a slash at the very end might begin a comment, but it is no punctuation
      cases cs with
      | nil =>
        rcases hrest with hrest | ⟨c, hrest⟩
        · exact absurd rfl hrest
        · have hall : ∀ p ∈ punctuation, p.2 ≠ .symbol := by decide
          exact absurd (by decide : (Lexeme.read ['/']).1.kind = .symbol) (hall _ hrest)
      | cons d ds =>
        rw [hc] at h
        rw [hc, show (d :: ds ++ after).head? = (d :: ds).head? from rfl]
        split at h
        · cases h
        next hline =>
          split at h
          · cases h
          next hblock => rw [if_neg hline, if_neg hblock]

end Trivia

end AcsOutline
