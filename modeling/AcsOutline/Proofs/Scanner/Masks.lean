import AcsOutline.Proofs.Scanner.Reached

/-!
# Masks and tokens

A line break or a blank is skipped or is a token, as the mask says; nothing else depends on it.
Under two masks that agree on comments a source has the same tokens, those of line breaks and
blanks left out, and the same comments (`Scanner.readAll_eq_of_comments_eq`).

A scanner is compared with one that skips line breaks and blanks in any case, and otherwise the
same (`SkipMask.spaced`).  `Scanner.Abreast` says that the two are at the same place.  Where the
first reads a token of a line break or a blank, the second only skips some trivia
(`Scanner.Abreast.next`), and so it never gets ahead.
-/

namespace AcsOutline

namespace SkipMask

variable {m m' : SkipMask}

/-- What one mask skips, another skips too. -/
structure Within (m m' : SkipMask) : Prop where
  newlines : m.newlines = true → m'.newlines = true
  blanks : m.blanks = true → m'.blanks = true
  lineComments : m.lineComments = true → m'.lineComments = true
  blockComments : m.blockComments = true → m'.blockComments = true

theorem within_all (m : SkipMask) : m.Within .all :=
  ⟨fun _ => rfl, fun _ => rfl, fun _ => rfl, fun _ => rfl⟩

/-- The mask that skips line breaks and blanks too. -/
def spaced (m : SkipMask) : SkipMask :=
  { m with newlines := true, blanks := true }

/-- Every sort of trivia is skipped but line breaks. -/
def lined : SkipMask :=
  { all with newlines := false }

theorem within_spaced (m : SkipMask) : m.Within m.spaced :=
  ⟨fun _ => rfl, fun _ => rfl, id, id⟩

theorem spaced_eq_of_comments_eq (hline : m.lineComments = m'.lineComments)
    (hblock : m.blockComments = m'.blockComments) : m.spaced = m'.spaced := by
  unfold spaced
  rw [hline, hblock]

end SkipMask

namespace TokenKind

/-- Whether a token of this kind is a line break or a blank. -/
def isSpace : TokenKind → Bool
  | newline | whitespace => true
  | _ => false

theorem isSpace_of_isWord {k : TokenKind} (h : k.isWord = true) : k.isSpace = false := by
  cases k <;> first | rfl | exact absurd h (by decide)

theorem ne_eof_of_isSpace {k : TokenKind} (h : k.isSpace = true) : k ≠ .eof := by
  rintro rfl
  cases h

end TokenKind

/-- Whether a token is neither a line break nor a blank. -/
def Token.isSolid (t : Token) : Bool :=
  !t.kind.isSpace

/-- The kind of token that trivia is where it is not skipped; a comment is no single token. -/
def TriviaKind.token? : TriviaKind → Option TokenKind
  | newline => some .newline
  | whitespace => some .whitespace
  | lineComment | blockComment => none

namespace Trivia

variable {mask mask' : SkipMask} {cs : List Char} {c : Char}

theorem not_isBlank_slash : ¬Text.isBlank '/' = true := by decide

/-- Trivia that a mask skips is the same trivia to every mask that skips more. -/
theorem extent_of_within (h : mask.Within mask') {e : TriviaKind × Nat}
    (he : extent mask c cs = some e) : extent mask' c cs = some e := by
  unfold extent at he
  split at he
  next hc => simpa [extent, hc.2, h.newlines hc.1] using he
  split at he
  next hc => simpa [extent, hc.2, h.newlines hc.1] using he
  split at he
  next hc =>
    obtain ⟨hmask, hblank, hbreak⟩ := hc
    have hne : c ≠ '\n' ∧ c ≠ '\r' := by simpa [isBreak] using hbreak
    simpa [extent, hne, hblank, hbreak, h.blanks hmask] using he
  split at he
  next hc =>
    obtain ⟨hmask, rfl, hnext⟩ := hc
    simpa [extent, hnext, not_isBlank_slash, h.lineComments hmask] using he
  split at he
  next hc =>
    obtain ⟨hmask, rfl, hnext⟩ := hc
    simpa [extent, hnext, not_isBlank_slash, h.blockComments hmask] using he
  · cases he

theorem read?_of_within (h : mask.Within mask') {kind : TriviaKind} {spelling rest : List Char}
    (hread : read? mask cs = some (kind, spelling, rest)) :
    read? mask' cs = some (kind, spelling, rest) := by
  cases cs with
  | nil => cases hread
  | cons c cs =>
    obtain ⟨e, he, hcut⟩ := Option.map_eq_some_iff.1 hread
    rw [read?, extent_of_within h he]
    exact congrArg some hcut

/-- A blank is no punctuation. -/
theorem lookup_eq_none_of_isBlank (h : Text.isBlank c = true) :
    Lexeme.punctuation.lookup c = none := by
  have hall : ∀ p ∈ Lexeme.punctuation, Text.isBlank p.1 = false := by decide
  cases hlookup : Lexeme.punctuation.lookup c with
  | none => rfl
  | some kind =>
    have := hall _ (Lexeme.mem_of_lookup hlookup)
    rw [h] at this
    cases this

/-- **What only a spaced mask skips is a line break or a blank**, and it is read as the token of
that. -/
theorem lexeme_extent_of_spaced (hnone : extent mask c cs = none) {kind : TriviaKind} {n : Nat}
    (h : extent mask.spaced c cs = some (kind, n)) :
    c ≠ '\x00' ∧ ∃ k, kind.token? = some k ∧ Lexeme.extent c cs = (k, n) := by
  by_cases hfeed : c = '\n'
  · subst hfeed
    obtain ⟨rfl, rfl⟩ : kind = .newline ∧ n = 0 := by
      simpa [extent, SkipMask.spaced, eq_comm] using h
    have hlookup : Lexeme.punctuation.lookup '\n' = none := by decide
    exact ⟨by decide, .newline, rfl, by simp [Lexeme.extent, hlookup]⟩
  by_cases hreturn : c = '\r'
  · subst hreturn
    obtain ⟨rfl, rfl⟩ : kind = .newline ∧ n = if cs.head? = some '\n' then 1 else 0 := by
      simpa [extent, SkipMask.spaced, eq_comm] using h
    have hlookup : Lexeme.punctuation.lookup '\r' = none := by decide
    exact ⟨by decide, .newline, rfl, by simp [Lexeme.extent, hlookup]⟩
  have hbreak : isBreak c = false := by simp [isBreak, hfeed, hreturn]
  by_cases hblank : Text.isBlank c = true
  · obtain ⟨rfl, rfl⟩ : kind = .whitespace ∧ n = 0 := by
      simpa [extent, SkipMask.spaced, hfeed, hreturn, hbreak, hblank, eq_comm] using h
    refine ⟨?_, .whitespace, rfl, ?_⟩
    · rintro rfl
      exact absurd hblank (by decide)
    · simp [Lexeme.extent, lookup_eq_none_of_isBlank hblank, hfeed, hreturn, hblank]
  · -- a comment is skipped by both masks or by none
    have hsame : extent mask.spaced c cs = extent mask c cs := by
      simp [extent, SkipMask.spaced, hfeed, hreturn, hblank]
      rfl
    rw [hsame, hnone] at h
    cases h

theorem lexeme_read_of_spaced (hnone : read? mask cs = none) {kind : TriviaKind}
    {spelling rest : List Char} (h : read? mask.spaced cs = some (kind, spelling, rest)) :
    ∃ k, kind.token? = some k ∧ Lexeme.read cs = (⟨k, spelling⟩, rest) := by
  cases cs with
  | nil => cases h
  | cons c cs =>
    obtain ⟨⟨k, n⟩, he, hcut⟩ := Option.map_eq_some_iff.1 h
    obtain ⟨rfl, rfl, rfl⟩ := hcut
    obtain ⟨hnul, t, ht, hextent⟩ := lexeme_extent_of_spaced (Option.map_eq_none_iff.1 hnone) he
    exact ⟨t, ht, by rw [Lexeme.read_cons hnul, hextent]⟩

end Trivia

/-- What is read as a line break or a blank starts with a blank character. -/
theorem Lexeme.exists_isBlank_of_isSpace {cs : List Char} (h : (read cs).1.kind.isSpace = true) :
    ∃ c ds, cs = c :: ds ∧ Text.isBlank c = true := by
  cases cs with
  | nil => cases h
  | cons c cs =>
    refine ⟨c, cs, rfl, ?_⟩
    by_cases hnul : c = '\x00'
    · subst hnul
      cases h
    rw [read_cons hnul] at h
    have hshape := shape_extent c cs
    generalize extent c cs = e at h hshape
    cases hshape with
    | punctuation hlookup =>
      have hall : ∀ p ∈ punctuation, p.2.isSpace = false := by decide
      rw [hall _ (mem_of_lookup hlookup)] at h
      cases h
    | lineFeed hc | carriageReturn hc =>
      subst hc
      decide
    | blank hc => exact hc
    | word =>
      rw [TokenKind.isSpace_of_isWord (TokenKind.isWord_ofWord _)] at h
      cases h
    | _ => cases h

namespace Scanner

/-- The comments that were skipped, in source order. -/
def commentTrivia (s : Scanner) : List Trivia :=
  s.trivia.filter (·.kind.isComment)

/-- `t` is where `s` is and has skipped the same comments; it skips line breaks and blanks, and
otherwise what `s` skips. -/
structure Abreast (s t : Scanner) : Prop where
  rest_eq : t.rest = s.rest
  position_eq : t.position = s.position
  line_eq : t.line = s.line
  mask_eq : t.mask = s.mask.spaced
  commentTrivia_eq : t.commentTrivia = s.commentTrivia

variable {s t : Scanner}

/-- Where line breaks and blanks are skipped, no token is one of them. -/
theorem isSpace_next (hmask : t.mask = .all) : t.next.token.kind.isSpace = false := by
  have hnone := t.read?_skipTrivia
  rw [hmask] at hnone
  cases hspace : t.next.token.kind.isSpace with
  | false => rfl
  | true =>
    obtain ⟨c, cs, hrest, hblank⟩ := Lexeme.exists_isBlank_of_isSpace hspace
    rw [hrest] at hnone
    rw [Trivia.read?, Option.map_eq_none_iff] at hnone
    by_cases hfeed : c = '\n'
    · simp [Trivia.extent, SkipMask.all, hfeed] at hnone
    by_cases hreturn : c = '\r'
    · simp [Trivia.extent, SkipMask.all, hreturn] at hnone
    simp [Trivia.extent, Trivia.isBreak, SkipMask.all, hfeed, hreturn, hblank] at hnone

/-- The piece of trivia with a given spelling where a scanner is. -/
def piece (s : Scanner) (kind : TriviaKind) (spelling : List Char) : Trivia :=
  ⟨kind, String.ofList (Trivia.textOf kind spelling),
    .ofEnds s.position (s.position + Text.byteLength spelling), s.line⟩

theorem trivia_skip (s : Scanner) (kind : TriviaKind) (spelling rest : List Char) :
    (s.skip kind spelling rest).trivia = s.trivia ++ [s.piece kind spelling] :=
  List.reverse_cons

theorem commentTrivia_skip (s : Scanner) (kind : TriviaKind) (spelling rest : List Char) :
    (s.skip kind spelling rest).commentTrivia =
      s.commentTrivia ++ [s.piece kind spelling].filter (·.kind.isComment) := by
  rw [commentTrivia, trivia_skip, List.filter_append]
  rfl

theorem abreast_spaced (s : Scanner) : s.Abreast (s.withMask s.mask.spaced) :=
  ⟨rfl, rfl, rfl, rfl, rfl⟩

namespace Abreast

/-- Both skip the same trivia. -/
theorem skip (h : s.Abreast t) (kind : TriviaKind) (spelling rest : List Char) :
    (s.skip kind spelling rest).Abreast (t.skip kind spelling rest) where
  rest_eq := rfl
  position_eq := congrArg (· + Text.byteLength spelling) h.position_eq
  line_eq := congrArg (· + Trivia.lineBreaks kind (Trivia.textOf kind spelling)) h.line_eq
  mask_eq := h.mask_eq
  commentTrivia_eq := by
    rw [commentTrivia_skip, commentTrivia_skip, h.commentTrivia_eq, piece, piece, h.position_eq,
      h.line_eq]

/-- What the one skips, the other skips too, and perhaps more after it. -/
theorem skipTrivia (h : s.Abreast t) :
    ∃ t', s.skipTrivia.Abreast t' ∧ t'.skipTrivia = t.skipTrivia := by
  fun_induction Scanner.skipTrivia s generalizing t with
  | case1 s hnone => exact ⟨t, h, rfl⟩
  | case2 s kind spelling rest hread ih =>
    obtain ⟨t', ht', hskip⟩ := ih (h.skip kind spelling rest)
    have hmore : Trivia.read? t.mask t.rest = some (kind, spelling, rest) := by
      rw [h.mask_eq, h.rest_eq]
      exact Trivia.read?_of_within s.mask.within_spaced hread
    exact ⟨t', ht', hskip.trans (skipTrivia_of_some hmore).symm⟩

/-- Both read the same token. -/
theorem readToken (h : s.Abreast t) :
    s.readToken.token = t.readToken.token ∧ s.readToken.Abreast t.readToken := by
  have hlexeme : Lexeme.read t.rest = Lexeme.read s.rest := congrArg Lexeme.read h.rest_eq
  refine ⟨?_, ?_, ?_, ?_, h.mask_eq, h.commentTrivia_eq⟩ <;>
    simp only [Scanner.readToken, hlexeme, h.position_eq, h.line_eq]

/-- The one reads a line break or a blank as a token where the other skips it. -/
theorem skip_readToken (h : s.Abreast t) {kind : TriviaKind} {spelling rest : List Char}
    {k : TokenKind} (hkind : kind.token? = some k) (hread : Lexeme.read s.rest = (⟨k, spelling⟩, rest)) :
    s.readToken.token.kind.isSpace = true ∧ s.readToken.Abreast (t.skip kind spelling rest) := by
  have htoken : s.readToken.token.kind = k := by
    simp only [Scanner.readToken, hread]
  rw [htoken]
  have hcomments : (t.skip kind spelling rest).commentTrivia = t.commentTrivia ∧
      tokenBreaks ⟨k, spelling⟩ = Trivia.lineBreaks kind (Trivia.textOf kind spelling) ∧
      k.isSpace = true := by
    rw [commentTrivia_skip]
    cases kind with
    | newline | whitespace =>
      cases hkind
      exact ⟨List.append_nil _, rfl, rfl⟩
    | lineComment | blockComment => cases hkind
  obtain ⟨hcomments, hbreaks, hspace⟩ := hcomments
  refine ⟨hspace, ?_, ?_, ?_, h.mask_eq, hcomments.trans h.commentTrivia_eq⟩
  · simp only [Scanner.readToken, Scanner.skip, hread]
  · simp only [Scanner.readToken, Scanner.skip, hread, h.position_eq]
  · simp only [Scanner.readToken, Scanner.skip, hread, h.line_eq, hbreaks]

/-- **One token.**  It is the next one of both; or it is a line break or a blank, and the other
only skips it. -/
theorem next (h : s.Abreast t) :
    (s.next.token = t.next.token ∧ s.next.Abreast t.next) ∨
      (s.next.token.kind.isSpace = true ∧ ∃ t', s.next.Abreast t' ∧ t'.next = t.next) := by
  obtain ⟨u, hu, hskip⟩ := h.skipTrivia
  have hnone := s.read?_skipTrivia
  rw [← s.mask_skipTrivia] at hnone
  rcases hread : Trivia.read? u.mask u.rest with _ | ⟨kind, spelling, rest⟩
  · left
    have hu' : t.next = u.readToken := by
      rw [Scanner.next, ← hskip, skipTrivia_of_none hread]
    rw [hu']
    exact hu.readToken
  · right
    have hspaced : Trivia.read? s.skipTrivia.mask.spaced s.skipTrivia.rest =
        some (kind, spelling, rest) := by
      rw [← hu.mask_eq, ← hu.rest_eq, hread]
    obtain ⟨k, hkind, hlexeme⟩ := Trivia.lexeme_read_of_spaced hnone hspaced
    obtain ⟨hspace, habreast⟩ := hu.skip_readToken hkind hlexeme
    refine ⟨hspace, u.skip kind spelling rest, habreast, ?_⟩
    rw [Scanner.next, Scanner.next, ← hskip, skipTrivia_of_some hread]

end Abreast

/-- All tokens are the next one and those after it. -/
theorem readAll_eq (s : Scanner) :
    s.readAll = if s.next.token.kind = .eof then ([s.next.token], s.next)
      else (s.next.token :: s.next.readAll.1, s.next.readAll.2) := by
  rw [readAll]
  split <;> rfl

theorem readAll_of_next_eq (h : s.next = t.next) : s.readAll = t.readAll := by
  rw [readAll_eq, readAll_eq t, h]

/-- **All tokens.**  Up to the end of input the two read the same, line breaks and blanks left
out, and skip the same comments. -/
theorem Abreast.readAll {s t : Scanner} (h : s.Abreast t) :
    s.readAll.1.filter Token.isSolid = t.readAll.1.filter Token.isSolid ∧
      s.readAll.2.commentTrivia = t.readAll.2.commentTrivia := by
  by_cases heof : s.next.token.kind = .eof
  · rcases h.next with ⟨htoken, hnext⟩ | ⟨hspace, -⟩
    · rw [readAll_eq, readAll_eq t, ← htoken, if_pos heof, if_pos heof]
      exact ⟨rfl, hnext.commentTrivia_eq.symm⟩
    · exact absurd heof (TokenKind.ne_eof_of_isSpace hspace)
  · have hlt : s.next.rest.length < s.rest.length := rest_next_length_lt heof
    rw [readAll_eq, if_neg heof]
    rcases h.next with ⟨htoken, hnext⟩ | ⟨hspace, t', hnext, hsame⟩
    · obtain ⟨htokens, hcomments⟩ := hnext.readAll
      rw [readAll_eq t, ← htoken, if_neg heof]
      exact ⟨by rw [List.filter_cons, List.filter_cons, htokens], hcomments⟩
    · obtain ⟨htokens, hcomments⟩ := hnext.readAll
      rw [← readAll_of_next_eq hsame]
      refine ⟨?_, hcomments⟩
      rw [List.filter_cons_of_neg (by simp [Token.isSolid, hspace]), htokens]
termination_by s.rest.length

/-- **Only comments depend on the mask.**  A source that is read to its end under two masks which
agree on line comments and on block comments has the same tokens under both, those of line breaks
and blanks left out, and the same comments. -/
theorem readAll_eq_of_comments_eq (source : String) {m m' : SkipMask}
    (hline : m.lineComments = m'.lineComments) (hblock : m.blockComments = m'.blockComments) :
    let all := ((ofString source).withMask m).readAll
    let all' := ((ofString source).withMask m').readAll
    all.1.filter Token.isSolid = all'.1.filter Token.isSolid ∧
      all.2.commentTrivia = all'.2.commentTrivia := by
  intro all all'
  have hall := (abreast_spaced ((ofString source).withMask m)).readAll
  have hall' := (abreast_spaced ((ofString source).withMask m')).readAll
  have hspaced : m.spaced = m'.spaced := SkipMask.spaced_eq_of_comments_eq hline hblock
  have hsame : ((ofString source).withMask m).withMask m.spaced =
      ((ofString source).withMask m').withMask m'.spaced := by
    rw [hspaced]
    rfl
  constructor
  · exact hall.1.trans ((congrArg (·.readAll.1.filter Token.isSolid) hsame).trans hall'.1.symm)
  · exact hall.2.trans ((congrArg (·.readAll.2.commentTrivia) hsame).trans hall'.2.symm)

/-- Line breaks and blanks as tokens, or skipped: a source with comments, a return before a line
feed, and a line break in a string. -/
theorem readAll_eq_of_breaks_as_tokens :
    SkipMask.all.lineComments = (SkipMask.ofBits 12).lineComments ∧
      SkipMask.all.blockComments = (SkipMask.ofBits 12).blockComments ∧
      (let all := ((ofString "a // x\r\n/* y */ \"b\n\" c").withMask .all).readAll
        let all' := ((ofString "a // x\r\n/* y */ \"b\n\" c").withMask (.ofBits 12)).readAll
        all.1.filter Token.isSolid = all'.1.filter Token.isSolid ∧
          all.2.commentTrivia = all'.2.commentTrivia) :=
  ⟨by decide, by decide, readAll_eq_of_comments_eq _ (by decide) (by decide)⟩

end Scanner

end AcsOutline
