import AcsOutline.Proofs.Scanner.Lines
import AcsOutline.Proofs.Scanner.Tokens

/-!
# Tokens with gaps between them

Tokens that are written one after another are read again, each at its place, whatever stands in the
gaps between them, if all of it is trivia and each gap begins with a blank character or a line break
(`Scanner.readAll_spell`).  The first character of a gap keeps a token from growing into the gap,
and the others are skipped up to the next token: blank characters, comments of any content, and line
breaks in every spelling.
-/

namespace AcsOutline

/-! ## Gaps -/

/-- Something that may stand in a gap. -/
inductive Filler where
  /-- A blank character, or one of the characters of a line break. -/
  | blank (c : Char) (h : Text.isBlank c = true)
  /-- A line comment and the character that ends its line.  The line feed that may follow a return
  is the next filler. -/
  | lineComment (text : List Char) (stop : Char) (htext : Text.Unbroken text)
    (hstop : Trivia.isBreak stop = true)
  /-- A block comment and its closing mark. -/
  | blockComment (text : List Char) (h : ¬['*', '/'] <:+: text)

/-- How a filler is written. -/
def Filler.spelling : Filler → List Char
  | blank c _ => [c]
  | lineComment text stop _ _ => '/' :: '/' :: (text ++ [stop])
  | blockComment text _ => '/' :: '*' :: (text ++ ['*', '/'])

/-- What stands between two tokens: it begins with a blank character or a line break. -/
structure Gap where
  first : Char
  isBlank_first : Text.isBlank first = true
  fillers : List Filler

/-- How a gap is written. -/
def Gap.spelling (g : Gap) : List Char :=
  g.first :: g.fillers.flatMap Filler.spelling

/-- What follows a gap is not part of the token before it. -/
theorem Gap.delimited (g : Gap) (cs : List Char) : Lexeme.Delimited (g.spelling ++ cs) :=
  Lexeme.delimited_blank g.isBlank_first _

/-! ## What is skipped -/

namespace Trivia

/-- What is left of a text behind the trivia that it begins with. -/
def behind (cs : List Char) : List Char :=
  (Scanner.ofList cs).skipTrivia.rest

theorem rest_skipTrivia {s : Scanner} (h : s.mask = .all) : s.skipTrivia.rest = behind s.rest :=
  Scanner.rest_skipTrivia_congr rfl h

theorem behind_of_none {cs : List Char} (h : read? .all cs = none) : behind cs = cs :=
  congrArg Scanner.rest (Scanner.skipTrivia_of_none (s := .ofList cs) h)

theorem behind_of_some {cs spelling rest : List Char} {kind : TriviaKind}
    (h : read? .all cs = some (kind, spelling, rest)) : behind cs = behind rest := by
  rw [behind, Scanner.skipTrivia_of_some (s := .ofList cs) h]
  exact Scanner.rest_skipTrivia_congr rfl rfl

/-- A comment ends at the first closing mark. -/
theorem commentBody_closed {text : List Char} (h : ¬['*', '/'] <:+: text) (after : List Char) :
    commentBody (text ++ '*' :: '/' :: after) = text := by
  induction text with
  | nil => rfl
  | cons c cs ih =>
    have hcs : ¬['*', '/'] <:+: cs := fun hmark => h (hmark.trans (List.suffix_cons c cs).isInfix)
    -- a star at the end of the text is followed by the star of the mark
    have hhead : ∀ r, c = '*' → cs ++ '*' :: '/' :: after = '/' :: r → False := by
      rintro r rfl hr
      cases cs with
      | nil => cases hr
      | cons d ds =>
        obtain ⟨rfl, -⟩ := List.cons.inj hr
        exact h ⟨[], ds, rfl⟩
    rw [List.cons_append, commentBody.eq_3 c _ hhead, ih hcs]

/-- A blank character is skipped, and so is a line break; a line feed behind a return is skipped
with it or after it. -/
theorem behind_blank {c : Char} (h : Text.isBlank c = true) (cs : List Char) :
    behind (c :: cs) = behind cs := by
  have hfeed : ∀ cs, behind ('\n' :: cs) = behind cs := by
    intro cs
    have hread : read? .all ('\n' :: cs) = some (.newline, ['\n'], cs) := by
      simp [read?, extent, SkipMask.all]
    exact behind_of_some hread
  by_cases hc : c = '\n'
  · rw [hc, hfeed]
  by_cases hreturn : c = '\r'
  · subst hreturn
    by_cases hpair : cs.head? = some '\n'
    · obtain ⟨ds, rfl⟩ := List.head?_eq_some_iff.1 hpair
      have hread : read? .all ('\r' :: '\n' :: ds) = some (.newline, ['\r', '\n'], ds) := by
        simp [read?, extent, SkipMask.all]
      rw [hfeed, behind_of_some hread]
    · have hread : read? .all ('\r' :: cs) = some (.newline, ['\r'], cs) := by
        simp [read?, extent, SkipMask.all, hpair]
      exact behind_of_some hread
  · have hread : read? .all (c :: cs) = some (.whitespace, [c], cs) := by
      simp [read?, extent, SkipMask.all, isBreak, hc, hreturn, h]
    exact behind_of_some hread

theorem isBlank_of_isBreak {c : Char} (h : isBreak c = true) : Text.isBlank c = true := by
  simp only [isBreak, Bool.or_eq_true, beq_iff_eq] at h
  rcases h with rfl | rfl <;> decide

/-- A line comment is skipped up to the end of its line. -/
theorem read?_lineComment {text : List Char} (htext : Text.Unbroken text) {stop : Char}
    (hstop : isBreak stop = true) (cs : List Char) :
    read? .all ('/' :: '/' :: (text ++ stop :: cs)) =
      some (.lineComment, '/' :: '/' :: text, stop :: cs) := by
  have hbody : (text ++ stop :: cs).takeWhile (!isBreak ·) = text := by
    have hin : ∀ c ∈ text, (!isBreak c) = true := by
      intro c hc
      simp [isBreak, htext c hc]
    exact Text.takeWhile_append_of_head hin fun c hc => by simp [← Option.some.inj hc, hstop]
  simp [read?, extent, SkipMask.all, Text.isBlank, hbody]

/-- A block comment is skipped up to its closing mark and with it. -/
theorem read?_blockComment {text : List Char} (h : ¬['*', '/'] <:+: text) (cs : List Char) :
    read? .all ('/' :: '*' :: (text ++ '*' :: '/' :: cs)) =
      some (.blockComment, '/' :: '*' :: (text ++ ['*', '/']), cs) := by
  have hextent : extent .all '/' ('*' :: (text ++ '*' :: '/' :: cs)) =
      some (.blockComment, text.length + 2 + 1) := by
    simp [extent, SkipMask.all, Text.isBlank, commentBody_closed h]
  have hcut : text ++ '*' :: '/' :: cs = (text ++ ['*', '/']) ++ cs := by simp
  have hlength : (text ++ ['*', '/']).length = text.length + 2 := by simp
  rw [read?, hextent, Option.map_some]
  dsimp only
  rw [List.take_succ_cons, List.drop_succ_cons, hcut, List.take_left' hlength,
    List.drop_left' hlength]

/-- **A filler is skipped** to its end. -/
theorem behind_filler (f : Filler) (cs : List Char) : behind (f.spelling ++ cs) = behind cs := by
  cases f with
  | blank c h => exact behind_blank h cs
  | lineComment text stop htext hstop =>
    rw [Filler.spelling, List.cons_append, List.cons_append, List.append_assoc,
      List.singleton_append, behind_of_some (read?_lineComment htext hstop cs),
      behind_blank (isBlank_of_isBreak hstop)]
  | blockComment text h =>
    rw [Filler.spelling, List.cons_append, List.cons_append, List.append_assoc]
    exact behind_of_some (read?_blockComment h cs)

/-- A gap is skipped up to what follows it. -/
theorem behind_gap (g : Gap) (cs : List Char) : behind (g.spelling ++ cs) = behind cs := by
  rw [Gap.spelling, List.cons_append, behind_blank g.isBlank_first]
  induction g.fillers with
  | nil => rfl
  | cons f fs ih => rw [List.flatMap_cons, List.append_assoc, behind_filler, ih]

end Trivia

/-! ## Tokens and their places -/

namespace Token

/-- A token that can be read where all trivia is skipped; where it stands does not matter, and
neither does whether the input cuts it off, since a string is written with both quotes. -/
def IsReadable (t : Token) : Prop :=
  t.kind ≠ .eof ∧ ∃ s : Scanner, s.mask = .all ∧ s.next.token.kind = t.kind ∧
    s.next.token.text = t.text

/-- What stands behind a token: some more tokens, each after a gap. -/
def spellAfter (gap : Nat → Gap) : List Token → List Char
  | [] => []
  | t :: ts => (gap 0).spelling ++ (t.literal.toList ++ spellAfter (fun i => gap (i + 1)) ts)

/-- Tokens as they are written, with gaps between them. -/
def spell (gap : Nat → Gap) : List Token → List Char
  | [] => []
  | t :: ts => t.literal.toList ++ spellAfter gap ts

/-- A token where a part of a source ends: it begins there, and its line is one more than the number
of line breaks before it. -/
def placedAt (t : Token) (before : List Char) : Token where
  kind := t.kind
  text := t.text
  span := .ofEnds (Text.byteLength before)
    (Text.byteLength before + Text.byteLength t.literal.toList)
  line := 1 + Text.countBreaks before

/-- The tokens that stand behind a part of a source, each after a gap, and the end of input. -/
def placedAfter (gap : Nat → Gap) (before : List Char) : List Token → List Token
  | [] => [initial.placedAt before]
  | t :: ts =>
    let start := before ++ (gap 0).spelling
    t.placedAt start :: placedAfter (fun i => gap (i + 1)) (start ++ t.literal.toList) ts

/-- The tokens of a source that is written with gaps between them, each at its place, and the end of
input. -/
def placed (gap : Nat → Gap) : List Token → List Token
  | [] => [initial.placedAt []]
  | t :: ts => t.placedAt [] :: placedAfter gap t.literal.toList ts

/-- A token that can be read is read again where a gap or nothing follows. -/
theorem IsReadable.legible {t : Token} (h : t.IsReadable) :
    Lexeme.Legible ⟨t.kind, t.literal.toList⟩ ∧
      Lexeme.text ⟨t.kind, t.literal.toList⟩ = t.text := by
  obtain ⟨heof, s, hmask, hkind, htext⟩ := h
  have hread : s.next.token.ReadUnder (·.hidesInline = true) :=
    (Scanner.sound_next (by rw [hmask]; rfl)).token_read
  have hnewline : t.kind ≠ .newline := by
    intro hnewline
    have hspace := Scanner.isSpace_next hmask
    rw [hkind, hnewline] at hspace
    cases hspace
  have hliteral : s.next.token.literal = t.literal := by rw [literal, literal, hkind, htext]
  rw [← hkind, ← htext, ← hliteral]
  exact hread.legible (hkind ▸ heof) (hkind ▸ hnewline)

theorem delimited_spellAfter (gap : Nat → Gap) (ts : List Token) :
    Lexeme.Delimited (spellAfter gap ts) := by
  cases ts with
  | nil => exact Lexeme.delimited_nil
  | cons t ts => exact (gap 0).delimited _

end Token

/-! ## Reading on -/

namespace Scanner

/-- A scanner that skips all trivia and has read a part of its source. -/
structure Past (before : List Char) (s : Scanner) : Prop where
  mask_eq : s.mask = .all
  counted : s.Counted
  source_eq : s.source = before ++ s.rest

namespace Past

variable {before lead : List Char} {s : Scanner}

theorem ofList (source : List Char) : (Scanner.ofList source).Past [] :=
  ⟨rfl, counted_ofList source, rfl⟩

/-- Its position and its line are those of the end of that part. -/
theorem place (h : s.Past before) :
    Text.byteLength before = s.position ∧ 1 + Text.countBreaks before = s.line := by
  obtain ⟨before', hsource, hlength, hline, -⟩ := h.counted
  obtain rfl : before' = before := List.append_cancel_right (hsource.symm.trans h.source_eq)
  exact ⟨hlength, (Nat.add_comm _ _).trans hline⟩

/-- To skip trivia is to read a part of what is left. -/
theorem skipTrivia (h : s.Past before) (hrest : s.rest = lead ++ s.skipTrivia.rest) :
    s.skipTrivia.Past (before ++ lead) where
  mask_eq := s.mask_skipTrivia.trans h.mask_eq
  counted := h.counted.skipTrivia
  source_eq := by
    rw [s.follows_skipTrivia.source_eq, h.source_eq, List.append_assoc, ← hrest]

/-- So is to read a token. -/
theorem readToken (h : s.Past before) :
    s.readToken.Past (before ++ (Lexeme.read s.rest).1.spelling) where
  mask_eq := h.mask_eq
  counted := h.counted.readToken
  source_eq := by
    show s.source = _
    rw [h.source_eq, List.append_assoc]
    exact congrArg (before ++ ·) (Lexeme.read_append s.rest).symm

/-- **The next token** behind a gap is the one that is written there, at its place. -/
theorem next {t : Token} {r : List Char} (h : s.Past before)
    (hrest : s.rest = lead ++ (t.literal.toList ++ r))
    (hlead : ∀ cs, Trivia.behind (lead ++ cs) = Trivia.behind cs) (ht : t.IsReadable)
    (hr : Lexeme.Delimited r) :
    s.next.token = t.placedAt (before ++ lead) ∧ s.next.rest = r ∧
      s.next.Past (before ++ lead ++ t.literal.toList) := by
  obtain ⟨hlegible, htext⟩ := ht.legible
  have hskip : s.skipTrivia.rest = t.literal.toList ++ r := by
    rw [Trivia.rest_skipTrivia h.mask_eq, hrest, hlead,
      Trivia.behind_of_none (hlegible.no_trivia r hr)]
  have hread : Lexeme.read s.skipTrivia.rest = (⟨t.kind, t.literal.toList⟩, r) := by
    rw [hskip]
    exact hlegible.read_eq r hr
  have hpast : s.skipTrivia.Past (before ++ lead) := h.skipTrivia (hskip ▸ hrest)
  have hnext := hpast.readToken
  rw [hread] at hnext
  obtain ⟨hposition, hline⟩ := hpast.place
  refine ⟨?_, congrArg Prod.snd hread, hnext⟩
  simp only [Scanner.next, Scanner.readToken, hread, Token.placedAt, hposition, hline, htext]

/-- The end of input comes where nothing is left. -/
theorem next_nil (h : s.Past before) (hrest : s.rest = []) :
    s.next.token = Token.initial.placedAt before := by
  have hskip : s.skipTrivia = s := skipTrivia_of_none (by rw [hrest]; rfl)
  have hread : Lexeme.read s.rest = (⟨.eof, []⟩, []) := by
    rw [hrest]
    rfl
  obtain ⟨hposition, hline⟩ := h.place
  simp only [Scanner.next, hskip, Scanner.readToken, hread, Token.placedAt, hposition, hline]
  rfl

end Past

/-- What is written behind a place is read from there. -/
theorem Past.readAll (ts : List Token) {gap : Nat → Gap} {before : List Char} {s : Scanner}
    (h : s.Past before) (hrest : s.rest = Token.spellAfter gap ts) (hts : ∀ t ∈ ts, t.IsReadable) :
    s.readAll.1 = Token.placedAfter gap before ts := by
  induction ts generalizing gap before s with
  | nil =>
    have htoken := h.next_nil hrest
    rw [readAll_eq, if_pos (by rw [htoken]; rfl), htoken]
    rfl
  | cons t ts ih =>
    have ht := hts t List.mem_cons_self
    obtain ⟨htoken, hbehind, hnext⟩ := h.next hrest (Trivia.behind_gap (gap 0)) ht
      (Token.delimited_spellAfter _ ts)
    rw [readAll_eq, if_neg (by rw [htoken]; exact ht.1), htoken,
      ih hnext hbehind fun u hu => hts u (List.mem_cons_of_mem t hu)]
    rfl

/-- **To read undoes to write.**  Tokens that can be read, written one after another with any gaps
between them, are read again: the same kinds and texts in the same order and then the end of input,
each at the place where it was written, on a line that is one more than the number of line breaks
before it. -/
theorem readAll_spell (gap : Nat → Gap) (ts : List Token) (h : ∀ t ∈ ts, t.IsReadable) :
    (ofList (Token.spell gap ts)).readAll.1 = Token.placed gap ts := by
  have hstart := Past.ofList (Token.spell gap ts)
  cases ts with
  | nil =>
    have hrest : (ofList (Token.spell gap [])).rest = Token.spellAfter gap [] := rfl
    exact hstart.readAll [] hrest h
  | cons t ts =>
    -- nothing stands before the first token
    have ht := h t List.mem_cons_self
    have hrest : (ofList (Token.spell gap (t :: ts))).rest =
        [] ++ (t.literal.toList ++ Token.spellAfter gap ts) := rfl
    obtain ⟨htoken, hbehind, hnext⟩ := hstart.next hrest (fun _ => rfl) ht
      (Token.delimited_spellAfter gap ts)
    rw [readAll_eq, if_neg (by rw [htoken]; exact ht.1), htoken,
      hnext.readAll ts hbehind fun u hu => h u (List.mem_cons_of_mem t hu)]
    rfl

/-- Tokens of several sorts.  Each gap holds a comment of each sort and a line break that is a pair,
and begins with a blank character that is not ASCII. -/
theorem readAll_spell_sorts :
    let ts := ["*/", "-", "-1_0.5", "\"a\nb\"", "/", "sTruct", "é", ";"].map fun source =>
      (ofString source).next.token
    ∃ gap : Nat → Gap,
      (∀ i, (gap i).spelling = ['\u3000', '/', '/', '"', '/', '*', '\r', '\n', '/', '*', '/', '*',
        '\r', '*', '*', '/']) ∧
      (∀ t ∈ ts, t.IsReadable) ∧ (ofList (Token.spell gap ts)).readAll.1 = Token.placed gap ts := by
  intro ts
  have hts : ∀ t ∈ ts, t.IsReadable := by
    intro t ht
    obtain ⟨source, hsource, rfl⟩ := List.mem_map.1 ht
    have hall : ∀ source ∈ ["*/", "-", "-1_0.5", "\"a\nb\"", "/", "sTruct", "é", ";"],
        (ofString source).next.token.kind ≠ .eof := by decide +kernel
    exact ⟨hall source hsource, ofString source, rfl, rfl, rfl⟩
  let gap : Gap := ⟨'\u3000', by decide +kernel,
    [.lineComment ['"', '/', '*'] '\r' (by simp [Text.Unbroken]) (by decide),
      .blank '\n' (by decide), .blockComment ['/', '*', '\r', '*'] (by decide)]⟩
  exact ⟨fun _ => gap, fun _ => rfl, hts, readAll_spell _ ts hts⟩

end Scanner

end AcsOutline
