import AcsOutline.Proofs.Scanner.Reread
import AcsOutline.Proofs.Scanner.Tiling

/-!
# Lines

The line of a scanner is one more than the number of line breaks that it has passed, whatever
masks it scans with (`Scanner.Counted.next`): line breaks stand in trivia, in tokens of their
own and in strings, and in nothing else.  A pair of `\r` and `\n` is never cut in two, which is
why the breaks of the pieces add up to those of the source.
-/

namespace AcsOutline

namespace Text

/-- Two parts of a text that a single line break lies across. -/
def SplitsBreak (before after : List Char) : Prop :=
  before.getLast? = some '\r' ∧ after.head? = some '\n'

theorem not_splitsBreak_of_last {before after : List Char} {c : Char}
    (hlast : before.getLast? = some c) (hc : c ≠ '\r') : ¬SplitsBreak before after :=
  fun h => hc (Option.some.inj (hlast.symm.trans h.1))

theorem not_splitsBreak_nil (before : List Char) : ¬SplitsBreak before [] :=
  fun h => nomatch h.2

theorem not_splitsBreak_of_not_pair {c : Char} {cs : List Char}
    (h : ∀ ds, c = '\r' → cs = '\n' :: ds → False) : ¬SplitsBreak [c] cs := by
  rintro ⟨hc, hhead⟩
  obtain ⟨ds, hds⟩ := List.head?_eq_some_iff.1 hhead
  exact h ds (Option.some.inj hc) hds

/-- The breaks of a text that begins with no pair. -/
theorem countBreaks_cons {c : Char} {cs : List Char} (h : ¬SplitsBreak [c] cs) :
    countBreaks (c :: cs) = countBreaks cs + if c = '\n' ∨ c = '\r' then 1 else 0 := by
  have hpair : ∀ ds, c = '\r' → cs = '\n' :: ds → False := by
    rintro ds rfl rfl
    exact h ⟨rfl, rfl⟩
  rw [countBreaks.eq_3 c cs hpair]
  split <;> rfl

/-- The line breaks of two parts are those of the whole, unless one is cut in two. -/
theorem countBreaks_append {before after : List Char} (h : ¬SplitsBreak before after) :
    countBreaks (before ++ after) = countBreaks before + countBreaks after := by
  induction before using countBreaks.induct with
  | case1 => rw [List.nil_append, countBreaks, Nat.zero_add]
  | case2 cs ih =>
    have hcs : ¬SplitsBreak cs after :=
      fun ⟨hlast, hhead⟩ => h ⟨by simp [List.getLast?_cons, hlast], hhead⟩
    rw [List.cons_append, List.cons_append, countBreaks, countBreaks, ih hcs]
    omega
  | case3 c cs hpair hbreak ih
  | case4 c cs hpair hbreak ih =>
    -- the two parts of the rest are cut where the two parts of the whole are
    have hfirst := not_splitsBreak_of_not_pair hpair
    have hwhole : ¬SplitsBreak [c] (cs ++ after) ∧ ¬SplitsBreak cs after := by
      cases cs with
      | nil => exact ⟨h, fun hsplit => nomatch hsplit.1⟩
      | cons d ds => exact ⟨hfirst, fun ⟨hlast, hhead⟩ => h ⟨by simpa using hlast, hhead⟩⟩
    rw [List.cons_append, countBreaks_cons hwhole.1, countBreaks_cons hfirst, ih hwhole.2]
    omega

/-- A text in which no line breaks. -/
def Unbroken (cs : List Char) : Prop :=
  ∀ c ∈ cs, c ≠ '\n' ∧ c ≠ '\r'

theorem Unbroken.not_splitsBreak {before : List Char} (h : Unbroken before) (after : List Char) :
    ¬SplitsBreak before after :=
  fun hsplit => (h '\r' (List.mem_of_getLast? hsplit.1)).2 rfl

theorem Unbroken.countBreaks_eq {cs : List Char} (h : Unbroken cs) : countBreaks cs = 0 := by
  induction cs with
  | nil => rfl
  | cons c cs ih =>
    obtain ⟨hfeed, hreturn⟩ := h c List.mem_cons_self
    have hfirst : ¬SplitsBreak [c] cs := not_splitsBreak_of_last rfl hreturn
    rw [countBreaks_cons hfirst, ih fun d hd => h d (List.mem_cons_of_mem c hd),
      if_neg (not_or.2 ⟨hfeed, hreturn⟩)]

theorem unbroken_nil : Unbroken [] :=
  fun _ hd => absurd hd List.not_mem_nil

theorem Unbroken.cons {c : Char} {cs : List Char} (hc : c ≠ '\n' ∧ c ≠ '\r') (h : Unbroken cs) :
    Unbroken (c :: cs) :=
  List.forall_mem_cons.2 ⟨hc, h⟩

theorem unbroken_takeWhile {p : Char → Bool} (hfeed : p '\n' = false) (hreturn : p '\r' = false)
    (cs : List Char) : Unbroken (cs.takeWhile p) := by
  intro d hd
  have hp := List.all_eq_true.1 List.all_takeWhile d hd
  constructor
  · rintro rfl
    rw [hfeed] at hp
    cases hp
  · rintro rfl
    rw [hreturn] at hp
    cases hp

/-- A return and the feed behind it, if there is one, are one line break, and a whole one. -/
theorem countBreaks_return (cs : List Char) {n : Nat}
    (hn : n = if cs.head? = some '\n' then 1 else 0) :
    countBreaks ('\r' :: cs.take n) = 1 ∧ ¬SplitsBreak ('\r' :: cs.take n) (cs.drop n) := by
  subst hn
  split
  next hfeed =>
    obtain ⟨tail, rfl⟩ := List.head?_eq_some_iff.1 hfeed
    exact ⟨rfl, not_splitsBreak_of_last (c := '\n') rfl (by decide)⟩
  next hfeed => exact ⟨rfl, fun hsplit => hfeed hsplit.2⟩

end Text

namespace Trivia

variable {mask : SkipMask} {cs spelling rest : List Char} {kind : TriviaKind}

/-- The breaks of a block comment are those of its text. -/
theorem lineBreaks_comment {text : List Char}
    (h : Marked TriviaKind.blockComment.opening TriviaKind.blockComment.closing text spelling rest) :
    Text.countBreaks text = Text.countBreaks spelling ∧ ¬Text.SplitsBreak spelling rest := by
  have hopening : Text.countBreaks (['/', '*'] ++ text) = Text.countBreaks text := by
    rw [Text.countBreaks_append (Text.not_splitsBreak_of_last (c := '*') rfl (by decide))]
    exact Nat.zero_add _
  rcases h with h | ⟨h, rfl⟩
  · have hclosing : ¬Text.SplitsBreak (['/', '*'] ++ text) ['*', '/'] := fun hsplit =>
      absurd (Option.some.inj hsplit.2) (by decide)
    have hlast : spelling.getLast? = some '/' := by
      rw [h, List.getLast?_append]
      rfl
    refine ⟨?_, Text.not_splitsBreak_of_last hlast (by decide)⟩
    rw [h]
    exact (hopening.symm.trans (Nat.add_zero _).symm).trans
      (Text.countBreaks_append hclosing).symm
  · exact ⟨by rw [h]; exact hopening.symm, Text.not_splitsBreak_nil _⟩

/-- **Trivia goes on for as many lines as its spelling has breaks**, and ends with no break that
goes on after it. -/
theorem lineBreaks_of_read? (h : read? mask cs = some (kind, spelling, rest)) :
    lineBreaks kind (textOf kind spelling) = Text.countBreaks spelling ∧
      ¬Text.SplitsBreak spelling rest := by
  have hmarked := marked_of_read? h
  cases cs with
  | nil => cases h
  | cons c cs =>
    obtain ⟨⟨k, n⟩, hextent, h⟩ := Option.map_eq_some_iff.1 h
    obtain ⟨rfl, rfl, rfl⟩ := h
    unfold extent at hextent
    split at hextent
    next hfeed =>
      cases hextent
      obtain ⟨-, rfl⟩ := hfeed
      exact ⟨rfl, Text.not_splitsBreak_of_last (c := '\n') rfl (by decide)⟩
    split at hextent
    next hreturn =>
      cases hextent
      obtain ⟨-, rfl⟩ := hreturn
      obtain ⟨hone, hwhole⟩ := Text.countBreaks_return cs rfl
      exact ⟨hone.symm, hwhole⟩
    split at hextent
    next hblank =>
      cases hextent
      have hc : Text.Unbroken (c :: cs.take 0) :=
        Text.unbroken_nil.cons (by simpa [isBreak] using hblank.2.2)
      exact ⟨hc.countBreaks_eq.symm, hc.not_splitsBreak _⟩
    split at hextent
    next hmark =>
      cases hextent
      obtain ⟨-, rfl, hhead⟩ := hmark
      obtain ⟨tail, rfl⟩ := List.head?_eq_some_iff.1 hhead
      have hline : Text.Unbroken ('/' :: '/' :: tail.takeWhile (!isBreak ·)) :=
        ((Text.unbroken_takeWhile rfl rfl tail).cons (by decide)).cons (by decide)
      rw [List.tail_cons, List.take_succ_cons, Lexeme.take_takeWhile]
      exact ⟨hline.countBreaks_eq.symm, hline.not_splitsBreak _⟩
    split at hextent
    · cases hextent
      exact lineBreaks_comment hmarked
    · cases hextent

end Trivia

namespace Lexeme

/-- Lines break only in line breaks and in strings. -/
theorem unbroken_shape {c : Char} {cs : List Char} {e : TokenKind × Nat} (h : Shape c cs e)
    (hnewline : e.1 ≠ .newline) (hstring : e.1 ≠ .string) : Text.Unbroken (c :: cs.take e.2) := by
  have hword : ∀ {d : Char}, isWordChar d = true → d ≠ '\n' ∧ d ≠ '\r' := fun hd =>
    ⟨isWordChar_ne hd (by decide), isWordChar_ne hd (by decide)⟩
  have hmark : ∀ {d : Char}, d ≠ '\n' ∧ d ≠ '\r' → c ≠ '\n' ∧ c ≠ '\r' → cs.head? = some d →
      Text.Unbroken (c :: cs.take 1) := by
    intro d hd hc hnext
    obtain ⟨tail, rfl⟩ := List.head?_eq_some_iff.1 hnext
    exact (Text.unbroken_nil.cons hd).cons hc
  have hone : c ≠ '\n' ∧ c ≠ '\r' → Text.Unbroken (c :: cs.take 0) := Text.unbroken_nil.cons
  have hrun : ∀ {p : Char → Bool}, p '\n' = false → p '\r' = false → c ≠ '\n' ∧ c ≠ '\r' →
      Text.Unbroken (c :: cs.take (cs.takeWhile p).length) := by
    intro p hfeed hreturn hc
    rw [take_takeWhile]
    exact (Text.unbroken_takeWhile hfeed hreturn cs).cons hc
  cases h with
  | punctuation h =>
    have hall : ∀ p ∈ punctuation, p.1 ≠ '\n' ∧ p.1 ≠ '\r' := by decide
    exact hone (hall _ (mem_of_lookup h))
  | lineFeed => exact absurd rfl hnewline
  | carriageReturn => exact absurd rfl hnewline
  | blank _ hfeed hreturn => exact hone ⟨hfeed, hreturn⟩
  | lineComment h hnext => exact hmark (by decide) (by rw [h]; decide) hnext
  | blockComment h hnext => exact hmark (by decide) (by rw [h]; decide) hnext
  | commentEnd h hnext => exact hmark (by decide) (by rw [h]; decide) hnext
  | quote => exact absurd rfl hstring
  | digit h => exact hrun (by decide) (by decide) (hword (isWordChar_of_isDigit h))
  | sign h => exact hrun (by decide) (by decide) (by rw [h]; decide)
  | dash h => exact hone (by rw [h]; decide)
  | word h => exact hrun (by decide) (by decide) (hword h)
  | other _ hblank =>
    exact hone ⟨Text.ne_of_not_isBlank hblank (by decide),
      Text.ne_of_not_isBlank hblank (by decide)⟩

/-- A line break that is a token is one, and is whole. -/
theorem countBreaks_shape {c : Char} {cs : List Char} {e : TokenKind × Nat} (h : Shape c cs e)
    (hnewline : e.1 = .newline) :
    Text.countBreaks (c :: cs.take e.2) = 1 ∧
      ¬Text.SplitsBreak (c :: cs.take e.2) (cs.drop e.2) := by
  cases h with
  | punctuation h =>
    have hall : ∀ p ∈ punctuation, p.2 ≠ .newline := by decide
    exact absurd hnewline (hall _ (mem_of_lookup h))
  | lineFeed h =>
    subst h
    exact ⟨rfl, Text.not_splitsBreak_of_last (c := '\n') rfl (by decide)⟩
  | carriageReturn h =>
    subst h
    exact Text.countBreaks_return cs rfl
  | word => exact absurd hnewline (TokenKind.ofWord_ne _ rfl)
  | _ => cases hnewline

/-- **A token goes on for as many lines as its spelling has breaks**, and ends with no break that
goes on after it. -/
theorem tokenBreaks_read (cs : List Char) :
    Scanner.tokenBreaks (read cs).1 = Text.countBreaks (read cs).1.spelling ∧
      ¬Text.SplitsBreak (read cs).1.spelling (read cs).2 := by
  have hmarked := marked_read cs
  cases cs with
  | nil => exact ⟨rfl, Text.not_splitsBreak_nil _⟩
  | cons c cs =>
    by_cases hnul : c = '\x00'
    · subst hnul
      exact ⟨rfl, fun hsplit => nomatch hsplit.1⟩
    rw [read_cons hnul] at hmarked ⊢
    have hshape := shape_extent c cs
    generalize extent c cs = e at hshape hmarked ⊢
    by_cases hnewline : e.1 = .newline
    · obtain ⟨hcount, hsplit⟩ := countBreaks_shape hshape hnewline
      refine ⟨?_, hsplit⟩
      rw [hcount, Scanner.tokenBreaks, hnewline]
    by_cases hstring : e.1 = .string
    · rw [hstring] at hmarked ⊢
      refine ⟨rfl, ?_⟩
      rcases hmarked with h | ⟨-, h⟩
      · dsimp only at h
        have hlast : (c :: cs.take e.2).getLast? = some '"' := by
          rw [h, List.getLast?_append]
          rfl
        exact Text.not_splitsBreak_of_last hlast (by decide)
      · dsimp only at h
        rw [h]
        exact Text.not_splitsBreak_nil _
    · have hunbroken := unbroken_shape hshape hnewline hstring
      refine ⟨?_, hunbroken.not_splitsBreak _⟩
      rw [hunbroken.countBreaks_eq]
      unfold Scanner.tokenBreaks
      split
      · exact absurd ‹_› hnewline
      · exact absurd ‹_› hstring
      · rfl

end Lexeme

namespace Scanner

variable {s t : Scanner}

/-- The position of a scanner is the length of what it has read of its source, and its line
counts the line breaks in that. -/
def Counted (s : Scanner) : Prop :=
  ∃ before, s.source = before ++ s.rest ∧ Text.byteLength before = s.position ∧
    Text.countBreaks before + 1 = s.line ∧ ¬Text.SplitsBreak before s.rest

theorem Counted.aligned (h : s.Counted) : s.Aligned := by
  obtain ⟨before, hsource, hlength, -, -⟩ := h
  exact ⟨before, hsource, hlength⟩

theorem counted_ofList (source : List Char) : (ofList source).Counted :=
  ⟨[], rfl, rfl, rfl, fun h => nomatch h.1⟩

/-- Reading on over a spelling keeps count. -/
theorem Counted.read_on (hs : s.Counted) {spelling : List Char}
    (hrest : spelling ++ t.rest = s.rest) (hsource : t.source = s.source)
    (hposition : t.position = s.position + Text.byteLength spelling)
    (hline : t.line = s.line + Text.countBreaks spelling)
    (hsplit : ¬Text.SplitsBreak spelling t.rest) : t.Counted := by
  obtain ⟨before, hbefore, hlength, hcount, hcut⟩ := hs
  refine ⟨before ++ spelling, ?_, ?_, ?_, ?_⟩
  · rw [hsource, hbefore, ← hrest, List.append_assoc]
  · rw [hposition, Text.byteLength_append, hlength]
  · have hjoin : ¬Text.SplitsBreak before spelling := by
      rintro ⟨hlast, hhead⟩
      obtain ⟨tail, rfl⟩ := List.head?_eq_some_iff.1 hhead
      exact hcut ⟨hlast, by rw [← hrest]; rfl⟩
    rw [Text.countBreaks_append hjoin, hline, ← hcount]
    omega
  · rintro ⟨hlast, hhead⟩
    cases spelling with
    | nil =>
      rw [List.append_nil] at hlast
      rw [List.nil_append] at hrest
      exact hcut ⟨hlast, by rw [← hrest]; exact hhead⟩
    | cons c cs => exact hsplit ⟨by simpa [List.getLast?_append] using hlast, hhead⟩

theorem Counted.skip (hs : s.Counted) {kind : TriviaKind} {spelling rest : List Char}
    (h : Trivia.read? s.mask s.rest = some (kind, spelling, rest)) :
    (s.skip kind spelling rest).Counted := by
  obtain ⟨hbreaks, hsplit⟩ := Trivia.lineBreaks_of_read? h
  exact hs.read_on (Trivia.read?_append h) rfl rfl (congrArg (s.line + ·) hbreaks) hsplit

theorem Counted.skipTrivia (hs : s.Counted) : s.skipTrivia.Counted := by
  fun_induction Scanner.skipTrivia s with
  | case1 => exact hs
  | case2 s kind spelling rest h ih => exact ih (hs.skip h)

theorem Counted.readToken (hs : s.Counted) : s.readToken.Counted := by
  obtain ⟨hbreaks, hsplit⟩ := Lexeme.tokenBreaks_read s.rest
  exact hs.read_on (Lexeme.read_append s.rest) rfl rfl (congrArg (s.line + ·) hbreaks) hsplit

/-- **To read a token keeps count of the lines.** -/
theorem Counted.next (hs : s.Counted) : s.next.Counted :=
  hs.skipTrivia.readToken

end Scanner

end AcsOutline
