import AcsOutline.Proofs.Scanner.Lines
import AcsOutline.Proofs.Scanner.Masks

/-!
# Line breaks in two spellings

A text without returns can be written with a return before each line feed (`Text.withReturns`).
Trivia and lexemes are cut off it at the same places: a return is no part of a word, a number or a
line comment, and within a block comment it is written before the line feeds as well.  Only a
string with a line break in it would hold another text.

A lone return is the third spelling of a line break (`LineBreak`).
-/

namespace AcsOutline

/-- The spellings of a line break. -/
inductive LineBreak where
  /-- A line feed. -/
  | feed
  /-- A return and a line feed. -/
  | pair
  /-- A lone return. -/
  | ret
deriving DecidableEq

namespace LineBreak

def spelling : LineBreak → List Char
  | feed => ['\n']
  | pair => ['\r', '\n']
  | ret => ['\r']

/-- A line break is no trivia where line breaks are tokens. -/
theorem read?_spelling_eq_none {mask : SkipMask} (h : mask.newlines = false) (b : LineBreak) :
    Trivia.read? mask b.spelling = none := by
  cases b <;> simp [spelling, Trivia.read?, Trivia.extent, Trivia.isBreak, h]

theorem read_spelling (b : LineBreak) : Lexeme.read b.spelling = (⟨.newline, b.spelling⟩, []) := by
  cases b <;> rfl

theorem delimited_spelling (b : LineBreak) : Lexeme.Delimited b.spelling := by
  cases b <;> exact Lexeme.delimited_blank (by decide) _

end LineBreak

namespace Text

variable {cs ds : List Char} {c : Char} {p : Char → Bool}

/-- A text with a return before each line feed. -/
def withReturns (cs : List Char) : List Char :=
  cs.flatMap fun c => if c = '\n' then ['\r', '\n'] else [c]

theorem withReturns_feed (cs : List Char) :
    withReturns ('\n' :: cs) = '\r' :: '\n' :: withReturns cs := rfl

theorem withReturns_cons (hc : c ≠ '\n') (cs : List Char) :
    withReturns (c :: cs) = c :: withReturns cs := by
  rw [withReturns, List.flatMap_cons, if_neg hc]
  rfl

theorem withReturns_append (cs ds : List Char) :
    withReturns (cs ++ ds) = withReturns cs ++ withReturns ds :=
  List.flatMap_append

/-- A text in which no line ends stays as it is. -/
theorem withReturns_eq_self (h : '\n' ∉ cs) : withReturns cs = cs := by
  induction cs with
  | nil => rfl
  | cons c cs ih =>
    have hc : c ≠ '\n' := fun e => h (e ▸ List.mem_cons_self)
    rw [withReturns_cons hc, ih fun hmem => h (List.mem_cons_of_mem c hmem)]

/-- Only a line feed is written in another way. -/
theorem head?_withReturns (hreturn : c ≠ '\r') (hfeed : c ≠ '\n') (cs : List Char) :
    (withReturns cs).head? = some c ↔ cs.head? = some c := by
  cases cs with
  | nil => rfl
  | cons d cs =>
    by_cases hd : d = '\n'
    · subst hd
      rw [withReturns_feed, List.head?_cons, List.head?_cons, Option.some.injEq, Option.some.injEq]
      exact ⟨fun h => absurd h.symm hreturn, fun h => absurd h.symm hfeed⟩
    · rw [withReturns_cons hd]
      exact Iff.rfl

theorem any_head?_withReturns (hp : p '\r' = p '\n') (cs : List Char) :
    (withReturns cs).head?.any p = cs.head?.any p := by
  cases cs with
  | nil => rfl
  | cons c cs =>
    by_cases hc : c = '\n'
    · subst hc
      exact hp
    · rw [withReturns_cons hc]
      rfl

/-- A run of characters in which no line ends is found again. -/
theorem takeWhile_withReturns (hp : p '\r' = p '\n') (h : '\n' ∉ cs.takeWhile p) :
    (withReturns cs).takeWhile p = cs.takeWhile p := by
  induction cs with
  | nil => rfl
  | cons c cs ih =>
    by_cases hc : p c = true
    · rw [List.takeWhile_cons_of_pos hc] at h ⊢
      have hne : c ≠ '\n' := fun e => h (e ▸ List.mem_cons_self)
      rw [withReturns_cons hne, List.takeWhile_cons_of_pos hc,
        ih fun hmem => h (List.mem_cons_of_mem c hmem)]
    · rw [List.takeWhile_cons_of_neg hc]
      by_cases hfeed : c = '\n'
      · subst hfeed
        rw [withReturns_feed, List.takeWhile_cons_of_neg (hp ▸ hc)]
      · rw [withReturns_cons hfeed, List.takeWhile_cons_of_neg hc]

/-- A part in which no line ends is cut off as before. -/
theorem cut_withReturns {n : Nat} (h : '\n' ∉ cs.take n) :
    (withReturns cs).take n = cs.take n ∧ (withReturns cs).drop n = withReturns (cs.drop n) := by
  have hsplit : withReturns cs = cs.take n ++ withReturns (cs.drop n) := by
    have happend := withReturns_append (cs.take n) (cs.drop n)
    rwa [List.take_append_drop, withReturns_eq_self h] at happend
  by_cases hn : n ≤ cs.length
  · have hlen : (cs.take n).length = n := List.length_take_of_le hn
    rw [hsplit]
    exact ⟨List.take_left' hlen, List.drop_left' hlen⟩
  · have hcs : cs.take n = cs := List.take_of_length_le (by omega)
    rw [hcs] at h ⊢
    rw [withReturns_eq_self h, List.drop_eq_nil_of_le (by omega)]
    exact ⟨hcs, rfl⟩

end Text

namespace Trivia

open Text

/-- A block comment holds the same text, written with returns. -/
theorem commentBody_withReturns (cs : List Char) :
    commentBody (withReturns cs) = withReturns (commentBody cs) := by
  fun_induction commentBody cs with
  | case1 => rfl
  | case2 rest => rfl
  | case3 c cs hne ih =>
    by_cases hc : c = '\n'
    · subst hc
      rw [withReturns_feed, withReturns_feed, commentBody.eq_3 '\r' _ fun _ h => absurd h (by decide),
        commentBody.eq_3 '\n' _ fun _ h => absurd h (by decide), ih]
    · rw [withReturns_cons hc, withReturns_cons hc, commentBody.eq_3 c _ ?_, ih]
      intro rest hstar hrest
      have hhead : (withReturns cs).head? = some '/' := by rw [hrest]; rfl
      rw [head?_withReturns (by decide) (by decide)] at hhead
      obtain ⟨rest', hcs⟩ := List.head?_eq_some_iff.1 hhead
      exact hne rest' hstar hcs

/-- A block comment is cut off at its end. -/
theorem cut_comment (cs : List Char) :
    (withReturns cs).take ((commentBody (withReturns cs)).length + 2) =
        withReturns (cs.take ((commentBody cs).length + 2)) ∧
      (withReturns cs).drop ((commentBody (withReturns cs)).length + 2) =
        withReturns (cs.drop ((commentBody cs).length + 2)) := by
  have hmark : '\n' ∉ ['*', '/'] := by decide
  rw [commentBody_withReturns]
  rcases commentBody_cases cs with ⟨after, hcs⟩ | hcs
  · generalize commentBody cs = body at hcs
    obtain rfl : cs = (body ++ ['*', '/']) ++ after := by simpa using hcs
    have hlen : (body ++ ['*', '/']).length = body.length + 2 := List.length_append
    have hlen' : (withReturns body ++ ['*', '/']).length = (withReturns body).length + 2 :=
      List.length_append
    rw [withReturns_append, List.take_left' hlen, List.drop_left' hlen, withReturns_append,
      withReturns_eq_self hmark, List.take_left' hlen', List.drop_left' hlen']
    exact ⟨rfl, rfl⟩
  · rw [← hcs, List.take_of_length_le (by omega), List.take_of_length_le (by omega),
      List.drop_eq_nil_of_le (by omega), List.drop_eq_nil_of_le (by omega)]
    exact ⟨rfl, rfl⟩

/-- What is cut off with returns. -/
abbrev relined (cut : TriviaKind × List Char × List Char) : TriviaKind × List Char × List Char :=
  (cut.1, withReturns cut.2.1, withReturns cut.2.2)

/-- A line comment ends where it did. -/
theorem read?_lineComment_withReturns (cs : List Char) :
    read? .lined (withReturns ('/' :: '/' :: cs)) =
      (read? .lined ('/' :: '/' :: cs)).map relined := by
  have hextent : ∀ ds, extent .lined '/' ('/' :: ds) =
      some (.lineComment, (ds.takeWhile (!isBreak ·)).length + 1) := fun _ => rfl
  have hrun : '\n' ∉ cs.takeWhile (!isBreak ·) := fun hmem =>
    absurd (List.all_eq_true.1 List.all_takeWhile _ hmem) (by decide)
  have hcut : '\n' ∉ cs.take (cs.takeWhile (!isBreak ·)).length := by
    rwa [Lexeme.take_takeWhile]
  obtain ⟨htake, hdrop⟩ := cut_withReturns hcut
  rw [withReturns_cons (by decide), withReturns_cons (by decide)]
  simp only [read?, hextent, Option.map_some, takeWhile_withReturns (by decide) hrun,
    List.take_succ_cons, List.drop_succ_cons, htake, hdrop, relined]
  rw [withReturns_cons (by decide), withReturns_cons (by decide), withReturns_eq_self hcut]

/-- A block comment ends at its mark. -/
theorem read?_blockComment_withReturns (cs : List Char) :
    read? .lined (withReturns ('/' :: '*' :: cs)) =
      (read? .lined ('/' :: '*' :: cs)).map relined := by
  have hextent : ∀ ds, extent .lined '/' ('*' :: ds) =
      some (.blockComment, (commentBody ds).length + 3) := fun _ => rfl
  obtain ⟨htake, hdrop⟩ := cut_comment cs
  rw [withReturns_cons (by decide), withReturns_cons (by decide)]
  simp only [read?, hextent, Option.map_some, List.take_succ_cons, List.drop_succ_cons, htake,
    hdrop, relined]
  rw [withReturns_cons (by decide), withReturns_cons (by decide)]

/-- **Trivia is cut off as before**, and written with returns. -/
theorem read?_withReturns {cs : List Char} (hreturn : '\r' ∉ cs) :
    read? .lined (withReturns cs) = (read? .lined cs).map relined := by
  cases cs with
  | nil => rfl
  | cons c cs =>
    by_cases hfeed : c = '\n'
    · subst hfeed
      rfl
    have hne : c ≠ '\r' := fun e => hreturn (e ▸ List.mem_cons_self)
    by_cases hblank : Text.isBlank c = true
    · have hextent : ∀ ds, extent .lined c ds = some (.whitespace, 0) := by
        intro ds
        simp [extent, isBreak, SkipMask.lined, SkipMask.all, hblank, hfeed, hne]
      have hone : withReturns [c] = [c] := withReturns_cons hfeed []
      rw [withReturns_cons hfeed]
      simp only [read?, hextent, Option.map_some, List.take_zero, List.drop_zero, relined,
        hone]
    by_cases hline : c = '/' ∧ cs.head? = some '/'
    · obtain ⟨rfl, hline⟩ := hline
      obtain ⟨ds, rfl⟩ := List.head?_eq_some_iff.1 hline
      exact read?_lineComment_withReturns ds
    by_cases hblock : c = '/' ∧ cs.head? = some '*'
    · obtain ⟨rfl, hblock⟩ := hblock
      obtain ⟨ds, rfl⟩ := List.head?_eq_some_iff.1 hblock
      exact read?_blockComment_withReturns ds
    -- no trivia begins here, nor with returns
    have hextent : ∀ {ds}, ¬(c = '/' ∧ ds.head? = some '/') → ¬(c = '/' ∧ ds.head? = some '*') →
        extent .lined c ds = none := by
      intro ds hline hblock
      simp [extent, SkipMask.lined, SkipMask.all, hblank, hline, hblock]
    have hline' : ¬(c = '/' ∧ (withReturns cs).head? = some '/') := fun h =>
      hline ⟨h.1, (head?_withReturns (by decide) (by decide) cs).1 h.2⟩
    have hblock' : ¬(c = '/' ∧ (withReturns cs).head? = some '*') := fun h =>
      hblock ⟨h.1, (head?_withReturns (by decide) (by decide) cs).1 h.2⟩
    rw [withReturns_cons hfeed, read?, read?, hextent hline hblock, hextent hline' hblock']
    rfl

end Trivia

namespace Lexeme

open Text

/-- What a character begins depends on no return after it. -/
theorem extent_withReturns {c : Char} {cs : List Char} (hreturn : c ≠ '\r')
    (hstring : c = '"' → '\n' ∉ cs.takeWhile (· ≠ '"')) :
    extent c (withReturns cs) = extent c cs := by
  have hrun : ∀ {p : Char → Bool}, p '\n' = false → p '\r' = false →
      (withReturns cs).takeWhile p = cs.takeWhile p := by
    intro p hfeed hback
    refine takeWhile_withReturns (hback.trans hfeed.symm) fun hmem => ?_
    rw [List.all_eq_true.1 List.all_takeWhile _ hmem] at hfeed
    cases hfeed
  have hslash : (withReturns cs).head? = some '/' ↔ cs.head? = some '/' :=
    head?_withReturns (by decide) (by decide) cs
  have hstar : (withReturns cs).head? = some '*' ↔ cs.head? = some '*' :=
    head?_withReturns (by decide) (by decide) cs
  unfold extent
  simp only [if_neg hreturn, hslash, hstar, any_head?_withReturns (p := Char.isDigit) (by decide),
    hrun (p := isNumberChar) (by decide) (by decide), hrun (p := isWordChar) (by decide) (by decide)]
  by_cases hquote : c = '"'
  · rw [takeWhile_withReturns (by decide) (hstring hquote)]
  · simp only [if_neg hquote]

/-- Only the characters of a line break begin one. -/
theorem eq_of_extent_eq_newline {c : Char} {cs : List Char} (h : (extent c cs).1 = .newline) :
    c = '\n' ∨ c = '\r' := by
  have hshape := shape_extent c cs
  generalize extent c cs = e at hshape h
  cases hshape with
  | punctuation hlookup =>
    have hall : ∀ p ∈ punctuation, p.2 ≠ .newline := by decide
    exact absurd h (hall _ (mem_of_lookup hlookup))
  | lineFeed hc => exact .inl hc
  | carriageReturn hc => exact .inr hc
  | word => exact absurd h (TokenKind.ofWord_ne _ rfl)
  | _ => cases h

/-- A string is closed, or it is the rest of the input. -/
theorem not_mem_of_string {cs : List Char}
    (h : '\n' ∉ (text ⟨.string, '"' :: cs.take ((cs.takeWhile (· ≠ '"')).length + 1)⟩).toList) :
    '\n' ∉ cs.take ((cs.takeWhile (· ≠ '"')).length + 1) := by
  rw [text, if_pos rfl, String.toList_ofList] at h
  rcases marked_quoted cs with hspelling | ⟨hspelling, -⟩
  · intro hmem
    rw [hspelling] at hmem
    rcases List.mem_append.1 hmem with hmem | hmem
    · exact h hmem
    · exact absurd hmem (by decide)
  · intro hmem
    rw [hspelling] at hmem
    exact h hmem

/-- **A lexeme is cut off as before**, unless it is a line break or a string with one in it. -/
theorem read_withReturns {c : Char} {cs : List Char} (hfeed : c ≠ '\n') (hreturn : c ≠ '\r')
    (hstring : (read (c :: cs)).1.kind = .string → '\n' ∉ (read (c :: cs)).1.text.toList) :
    read (withReturns (c :: cs)) = ((read (c :: cs)).1, withReturns (read (c :: cs)).2) := by
  by_cases hnul : c = '\x00'
  · subst hnul
    rw [withReturns_cons hfeed]
    show (_, '\x00' :: withReturns cs) = (_, withReturns ('\x00' :: cs))
    rw [withReturns_cons hfeed]
    rfl
  rw [withReturns_cons hfeed]
  rw [read_cons hnul] at hstring ⊢
  rw [read_cons hnul]
  -- no line ends in the lexeme
  have hrun : '\n' ∉ cs.take (extent c cs).2 := by
    by_cases hkind : (extent c cs).1 = .string
    · obtain ⟨rfl, hlen⟩ := extent_eq_string hkind
      rw [hlen] at hstring ⊢
      rw [hkind] at hstring
      exact not_mem_of_string (hstring rfl)
    · have hshape := shape_extent c cs
      have hunbroken := unbroken_shape hshape ?_ hkind
      · exact fun hmem => (hunbroken '\n' (List.mem_cons_of_mem c hmem)).1 rfl
      · exact fun hkind => (eq_of_extent_eq_newline hkind).elim hfeed hreturn
  have hquote : c = '"' → '\n' ∉ cs.takeWhile (· ≠ '"') := by
    rintro rfl hmem
    rw [extent_quote] at hrun
    rw [← take_takeWhile] at hmem
    exact hrun ((List.take_subset_take_left cs (Nat.le_succ _)) hmem)
  obtain ⟨htake, hdrop⟩ := cut_withReturns hrun
  rw [extent_withReturns hreturn hquote, htake, hdrop]

/-- **One lexeme with returns**: a line break is one, and any other lexeme is the same. -/
theorem relined_read {cs : List Char} (hreturn : '\r' ∉ cs)
    (hstring : (read cs).1.kind = .string → '\n' ∉ (read cs).1.text.toList) :
    (read (withReturns cs)).2 = withReturns (read cs).2 ∧
      (read (withReturns cs)).1.kind = (read cs).1.kind ∧
      ((read cs).1.kind ≠ .newline → (read (withReturns cs)).1 = (read cs).1) := by
  cases cs with
  | nil => exact ⟨rfl, rfl, fun _ => rfl⟩
  | cons c cs =>
    by_cases hfeed : c = '\n'
    · subst hfeed
      exact ⟨rfl, rfl, fun hkind => absurd rfl hkind⟩
    · have hne : c ≠ '\r' := fun e => hreturn (e ▸ List.mem_cons_self)
      rw [read_withReturns hfeed hne hstring]
      exact ⟨rfl, rfl, fun _ => rfl⟩

end Lexeme

end AcsOutline
