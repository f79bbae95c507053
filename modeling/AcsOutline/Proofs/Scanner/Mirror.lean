import AcsOutline.Proofs.Scanner.Lines
import AcsOutline.Proofs.Scanner.Prefix

/-!
# A part of a source

A scanner that reads a part of a source mirrors one that reads all of it: it finds the same
tokens and trivia, at places that are counted from the start of the part.  A `Shift` says what
the part is and what stands around it, and `Scanner.Mirrors` relates the two scanners.

There are two ways to cut a source.  Behind its cut the second part is all that is left, and a
scanner that reads on there mirrors the other one whatever it does.  The first part ends at the
cut, and there the two scanners only agree while the one that reads everything stays inside the
part (`Alongside.next`).  A look ahead may go past the cut; if the scanner of the part
finds something in the text or a punctuation character, then the other one finds it too
(`Alongside.inside`).
-/

namespace AcsOutline

/-! ## Places that move -/

/-- How far a part of a source stands behind the start of the source. -/
structure Move where
  lines : Nat
  bytes : Nat

/-- What stands behind a text has moved over it. -/
def Move.over (before : List Char) : Move :=
  ⟨Text.countBreaks before, Text.byteLength before⟩

/-- A range in a part, counted from the start of the source. -/
def Span.move (m : Move) (s : Span) : Span :=
  ⟨s.start + m.bytes, s.stop + m.bytes, Nat.add_le_add_right s.start_le_stop m.bytes⟩

/-- A token of a part, at its place in the source. -/
def Token.move (m : Move) (t : Token) : Token :=
  { t with span := t.span.move m, line := t.line + m.lines }

/-- Trivia of a part, at its place in the source. -/
def Trivia.move (m : Move) (t : Trivia) : Trivia :=
  { t with span := t.span.move m, line := t.line + m.lines }

namespace Fault

/-- A fault in a part, at its place in the source. -/
def move (m : Move) : Fault → Fault
  | endOfInput place => endOfInput (place.move m)
  | endBefore expected place => endBefore expected (place.move m)
  | wrongToken expected token => wrongToken expected (token.move m)
  | openString place => openString (place.move m)
  | openBody what opening => openBody what (opening.move m)
  | repeatedModifier first second => repeatedModifier (first.move m) (second.move m)
  | unknownStart token => unknownStart (token.move m)
  | unmatchedBrace place => unmatchedBrace (place.move m)
  | unknownTag tag comment => unknownTag tag (comment.move m)
  | missingFile path => missingFile path
  | unreadableFile path reason => unreadableFile path reason
  | repeatedFile path => repeatedFile path
  | cancelled => cancelled

end Fault

section Moves

variable (m : Move)

theorem Span.move_ofEnds (start stop : Nat) :
    (Span.ofEnds start stop).move m = .ofEnds (start + m.bytes) (stop + m.bytes) := by
  simp only [Span.move, Span.ofEnds, Span.mk.injEq, true_and]
  omega

@[simp]
theorem Span.length_move (s : Span) : (s.move m).length = s.length :=
  Nat.add_sub_add_right _ _ _

theorem Span.move_union (s t : Span) : (s.union t).move m = (s.move m).union (t.move m) := by
  simp only [Span.move, Span.union, Span.mk.injEq]
  omega

@[simp]
theorem Token.kind_move (t : Token) : (t.move m).kind = t.kind := rfl

@[simp]
theorem Token.text_move (t : Token) : (t.move m).text = t.text := rfl

@[simp]
theorem Token.span_move (t : Token) : (t.move m).span = t.span.move m := rfl

@[simp]
theorem Token.line_move (t : Token) : (t.move m).line = t.line + m.lines := rfl

@[simp]
theorem Token.isWord_move (t : Token) (word : String) : (t.move m).isWord word = t.isWord word :=
  rfl

@[simp]
theorem Token.literal_move (t : Token) : (t.move m).literal = t.literal := rfl

@[simp]
theorem Token.isUnclosedString_move (t : Token) :
    (t.move m).isUnclosedString = t.isUnclosedString := by
  simp [isUnclosedString]

@[simp]
theorem Trivia.kind_move (t : Trivia) : (t.move m).kind = t.kind := rfl

@[simp]
theorem Trivia.text_move (t : Trivia) : (t.move m).text = t.text := rfl

/-- A token that does not fit is the same fault wherever it stands. -/
theorem Fault.move_unexpected (expected : String) (t : Token) :
    (Fault.unexpected expected t).move m = .unexpected expected (t.move m) := by
  have hiff := iff_of_eq (congrArg (· = true) (t.isUnclosedString_move m))
  by_cases hopen : t.isUnclosedString = true
  · rw [unexpected, unexpected, if_pos hopen, if_pos (hiff.2 hopen)]
    rfl
  rw [unexpected, unexpected, if_neg hopen, if_neg (hopen ∘ hiff.1)]
  by_cases heof : t.kind = .eof
  · rw [if_pos heof, if_pos (show (t.move m).kind = .eof from heof)]
    rfl
  · rw [if_neg heof, if_neg (show ¬(t.move m).kind = .eof from heof)]
    rfl

theorem Fault.move_noDeclaration (t : Token) :
    (Fault.noDeclaration t).move m = .noDeclaration (t.move m) := by
  have hiff := iff_of_eq (congrArg (· = true) (t.isUnclosedString_move m))
  by_cases hopen : t.isUnclosedString = true
  · rw [noDeclaration, noDeclaration, if_pos hopen, if_pos (hiff.2 hopen)]
    rfl
  · rw [noDeclaration, noDeclaration, if_neg hopen, if_neg (hopen ∘ hiff.1)]
    rfl

end Moves

theorem Token.move_over_nil (t : Token) : t.move (.over []) = t := rfl

theorem Fault.move_over_nil (f : Fault) : f.move (.over []) = f := by
  cases f <;> rfl

/-! ## Two scanners -/

/-- A part of a source, and how a scanner that reads the whole source stands to one that reads
the part. -/
structure Shift where
  /-- What stands before the part. -/
  before : List Char
  /-- The part. -/
  part : List Char
  /-- What stands after the part. -/
  after : List Char
  /-- The depth of braces before the part. -/
  braces : Int
  /-- The trivia skipped before the part, the latest first. -/
  skipped : List Trivia
  /-- The mask of both scanners. -/
  mask : SkipMask
  /-- The part is at one of the two ends. -/
  at_end : after = [] ∨ (before = [] ∧ braces = 0)

/-- How far the part stands behind the start of the source. -/
def Shift.move (m : Shift) : Move :=
  .over m.before

/-- The same part, read with another mask. -/
def Shift.withMask (m : Shift) (mask : SkipMask) : Shift :=
  { m with mask }

/-- A token lies in a source: it begins between two characters and ends before the source
does. -/
structure Token.LiesIn (source : List Char) (t : Token) : Prop where
  start_boundary : Text.IsBoundary source t.span.start
  stop_le : t.span.stop ≤ Text.byteLength source

namespace Scanner

/-- Two scanners are at the same place of a part: `s` reads the whole source and `t` reads the
part. -/
structure Alongside (m : Shift) (s t : Scanner) : Prop where
  whole_eq : s.source = m.before ++ m.part ++ m.after
  part_eq : t.source = m.part
  rest_eq : s.rest = t.rest ++ m.after
  position_eq : s.position = t.position + m.move.bytes
  line_eq : s.line = t.line + m.move.lines
  braces_eq : s.braces = t.braces + m.braces
  whole_mask : s.mask = m.mask
  part_mask : t.mask = m.mask
  skipped_eq : s.skipped = t.skipped.map (Trivia.move m.move) ++ m.skipped
  counted : t.Counted

/-- Two scanners are at the same place of a part and have read the same token. -/
structure Mirrors (m : Shift) (s t : Scanner) : Prop extends Alongside m s t where
  token_eq : s.token = t.token.move m.move
  token_liesIn : t.token.LiesIn m.part

theorem rest_skipTrivia_suffix (s : Scanner) : s.skipTrivia.rest <:+ s.rest := by
  fun_induction skipTrivia s with
  | case1 => exact List.suffix_refl _
  | case2 s kind spelling rest h ih => exact ih.trans ⟨spelling, Trivia.read?_append h⟩

theorem rest_readToken_suffix (s : Scanner) : s.readToken.rest <:+ s.rest :=
  ⟨_, Lexeme.read_append s.rest⟩

/-- What is left after the next token is an end of what was left before it. -/
theorem rest_next_suffix (s : Scanner) : s.next.rest <:+ s.rest :=
  (rest_readToken_suffix s.skipTrivia).trans (rest_skipTrivia_suffix s)

/-- What a scanner has before it is not longer than what its source has after its position. -/
theorem Counted.position_le {s : Scanner} (h : s.Counted) :
    s.position ≤ Text.byteLength s.source := by
  obtain ⟨before, hsource, hlength, -, -⟩ := h
  rw [hsource, Text.byteLength_append, hlength]
  exact Nat.le_add_right _ _

theorem Counted.boundary {s : Scanner} (h : s.Counted) :
    Text.IsBoundary s.source s.position := by
  obtain ⟨before, hsource, hlength, -, -⟩ := h
  exact ⟨before, s.rest, hsource, hlength⟩

/-- The token that is read lies in the source. -/
theorem Counted.token_liesIn {s : Scanner} (h : s.Counted) :
    s.readToken.token.LiesIn s.source where
  start_boundary := h.boundary
  stop_le := by
    have hstop : s.readToken.token.span.stop = s.readToken.position :=
      Nat.max_eq_right (Nat.le_add_right _ _)
    rw [hstop]
    exact h.readToken.position_le

/-- Both scanners go on with another mask. -/
theorem Mirrors.withMask {m : Shift} {s t : Scanner} (h : Mirrors m s t) (mask : SkipMask) :
    Mirrors (m.withMask mask) (s.withMask mask) (t.withMask mask) :=
  { h with whole_mask := rfl, part_mask := rfl }

/-- Both scanners go back to the mask that they had. -/
theorem Mirrors.withMask_back {m : Shift} {s t : Scanner} {mask : SkipMask}
    (h : Mirrors (m.withMask mask) s t) : Mirrors m (s.withMask m.mask) (t.withMask m.mask) :=
  { h with whole_mask := rfl, part_mask := rfl }

namespace Alongside

variable {m : Shift} {s t : Scanner}

theorem mask_eq (h : Alongside m s t) : s.mask = t.mask :=
  h.whole_mask.trans h.part_mask.symm

/-! ## Inside the part -/

/-- The same trivia is skipped. -/
theorem skip (h : Alongside m s t) {kind : TriviaKind} {spelling rest : List Char}
    (hread : Trivia.read? t.mask t.rest = some (kind, spelling, rest)) :
    Alongside m (s.skip kind spelling (rest ++ m.after)) (t.skip kind spelling rest) where
  whole_eq := h.whole_eq
  part_eq := h.part_eq
  rest_eq := rfl
  position_eq := by
    simp only [Scanner.skip, h.position_eq]
    omega
  line_eq := by
    simp only [Scanner.skip, h.line_eq]
    omega
  braces_eq := h.braces_eq
  whole_mask := h.whole_mask
  part_mask := h.part_mask
  skipped_eq := by
    have hspan : (Span.ofEnds t.position (t.position + Text.byteLength spelling)).move m.move =
        .ofEnds s.position (s.position + Text.byteLength spelling) := by
      rw [Span.move_ofEnds, h.position_eq, Nat.add_right_comm]
    simp only [Scanner.skip, List.map_cons, List.cons_append, h.skipped_eq, Trivia.move, hspan,
      h.line_eq]
  counted := by
    obtain ⟨hbreaks, hsplit⟩ := Trivia.lineBreaks_of_read? hread
    exact h.counted.read_on (Trivia.read?_append hread) rfl rfl
      (congrArg (t.line + ·) hbreaks) hsplit

/-- The same token is read. -/
theorem readToken (h : Alongside m s t)
    (hs : Lexeme.read s.rest = ((Lexeme.read t.rest).1, (Lexeme.read t.rest).2 ++ m.after)) :
    Mirrors m s.readToken t.readToken where
  whole_eq := h.whole_eq
  part_eq := h.part_eq
  rest_eq := congrArg (·.2) hs
  position_eq := by
    simp only [Scanner.readToken, hs, h.position_eq]
    omega
  line_eq := by
    simp only [Scanner.readToken, hs, h.line_eq]
    omega
  braces_eq := by
    simp only [Scanner.readToken, hs, h.braces_eq]
    omega
  whole_mask := h.whole_mask
  part_mask := h.part_mask
  skipped_eq := h.skipped_eq
  counted := h.counted.readToken
  token_eq := by
    simp only [Scanner.readToken, hs, Token.move, Span.move_ofEnds, h.position_eq, h.line_eq,
      Nat.add_right_comm]
  token_liesIn := h.part_eq ▸ h.counted.token_liesIn

/-- The same trivia is skipped, as long as that ends in the part. -/
theorem skipTrivia (h : Alongside m s t) (hin : m.after <:+ s.skipTrivia.rest) :
    Alongside m s.skipTrivia t.skipTrivia := by
  fun_induction Scanner.skipTrivia s generalizing t with
  | case1 s hnone =>
    rw [h.mask_eq, h.rest_eq] at hnone
    rw [skipTrivia_of_none (Trivia.read?_eq_none_of_append hnone)]
    exact h
  | case2 s kind spelling rest hsome ih =>
    obtain ⟨inner, rfl⟩ := hin.trans (rest_skipTrivia_suffix (s.skip kind spelling rest))
    rw [h.mask_eq, h.rest_eq] at hsome
    have hpart := Trivia.read?_of_append hsome
    rw [skipTrivia_of_some hpart]
    exact ih (h.skip hpart) hin

/-- **The same token is read next**, as long as it lies in the part. -/
theorem next (h : Alongside m s t) (hin : m.after <:+ s.next.rest) :
    Mirrors m s.next t.next := by
  have hskip := h.skipTrivia (hin.trans (rest_readToken_suffix s.skipTrivia))
  obtain ⟨inner, hinner⟩ := hin
  have hwhole : Lexeme.read (t.skipTrivia.rest ++ m.after) =
      ((Lexeme.read s.skipTrivia.rest).1, inner ++ m.after) := by
    rw [← hskip.rest_eq, hinner]
    rfl
  have hpart := Lexeme.read_of_append hwhole
  refine hskip.readToken ?_
  rw [hskip.rest_eq, hwhole, hpart]

/-! ## Looking ahead -/

/-- The same trivia is skipped, as long as it is followed by more text of the part. -/
theorem skipTrivia_of_ne_nil (h : Alongside m s t)
    (hmore : (Lexeme.read t.skipTrivia.rest).2 ≠ [] ∨
      ∃ c, (c, (Lexeme.read t.skipTrivia.rest).1.kind) ∈ Lexeme.punctuation) :
    Alongside m s.skipTrivia t.skipTrivia := by
  fun_induction Scanner.skipTrivia t generalizing s with
  | case1 t hnone =>
    have hwhole := Trivia.read?_append_eq_none hnone hmore m.after
    rw [← h.rest_eq, ← h.mask_eq] at hwhole
    rw [skipTrivia_of_none hwhole]
    exact h
  | case2 t kind spelling rest hsome ih =>
    have hrest : rest ≠ [] := by
      rintro rfl
      have hnil := List.suffix_nil.1 (rest_skipTrivia_suffix (t.skip kind spelling []))
      rw [hnil] at hmore
      rcases hmore with hmore | ⟨c, hmore⟩
      · exact hmore rfl
      · exact Lexeme.kind_ne_eof_of_mem hmore rfl
    have hwhole := Trivia.read?_append_right hsome hrest m.after
    rw [← h.rest_eq, ← h.mask_eq] at hwhole
    rw [skipTrivia_of_some hwhole]
    exact ih (h.skip hsome) hmore

/-- **A token that is seen ahead in the part** lies in the part for the scanner of the whole
source as well, if there is more text of the part behind it or if it is punctuation. -/
theorem inside (h : Alongside m s t)
    (hmore : t.next.rest ≠ [] ∨ ∃ c, (c, t.next.token.kind) ∈ Lexeme.punctuation) :
    m.after <:+ s.next.rest := by
  have hskip := h.skipTrivia_of_ne_nil hmore
  refine ⟨t.next.rest, ?_⟩
  show _ = (Lexeme.read s.skipTrivia.rest).2
  rw [hskip.rest_eq, Lexeme.read_append_right hmore m.after]
  rfl

/-- Punctuation that is seen ahead in the part is seen in the whole source. -/
theorem kind_next (h : Alongside m s t) {kind : TokenKind} (hkind : t.next.token.kind = kind)
    {c : Char} (hc : (c, kind) ∈ Lexeme.punctuation) : s.next.token.kind = kind := by
  have hnext := h.next (h.inside (Or.inr ⟨c, hkind ▸ hc⟩))
  rw [hnext.token_eq, Token.kind_move, hkind]

/-- Where punctuation is seen ahead behind a token, both lie in the part. -/
theorem inside_of_kind_next_next (h : Alongside m s t) {kind : TokenKind}
    (hkind : t.next.next.token.kind = kind) {c : Char} (hc : (c, kind) ∈ Lexeme.punctuation) :
    m.after <:+ s.next.next.rest := by
  have hmore : t.next.rest ≠ [] := by
    intro hnil
    have hlt := rest_next_length_lt (s := t.next) (by
      rw [hkind]
      exact Lexeme.kind_ne_eof_of_mem hc)
    rw [hnil] at hlt
    exact absurd hlt (Nat.not_lt_zero _)
  have hnext := h.next (h.inside (Or.inl hmore))
  exact hnext.inside (Or.inr ⟨c, hkind ▸ hc⟩)

end Alongside

end Scanner

end AcsOutline
