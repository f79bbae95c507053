import AcsOutline.Proofs.Scanner.Reached
import AcsOutline.Proofs.Text.Split

/-!
# Reading a token again

A token that was read while blanks and comments were skipped can be read again from how it is
written: where a delimiter, a blank character or nothing follows, the same lexeme is found, and
nothing more is taken (`Token.ReadUnder.legible`).  The delimiter keeps it from growing into what
comes next: no word or number goes on with one, a dash before one is no sign, and a slash before one
begins no comment.

The reason is that a lexeme is told by its first character and by what that one may be followed
by; the `extent_*` lemmas say which, for each sort of first character.
-/

namespace AcsOutline

namespace Lexeme

/-! ## Delimiters -/

/-- Characters that part lexemes: none of them goes on with what stands before it. -/
def delimiters : List Char :=
  [' ', '\n', ')', '[', ']', ',', ';', ':']

/-- What follows a lexeme does not belong to it: it is nothing, or begins with a delimiter or with
any blank character. -/
def Delimited (r : List Char) : Prop :=
  ∀ d, r.head? = some d → d ∈ delimiters ∨ Text.isBlank d = true

theorem delimited_nil : Delimited [] := by
  intro d h
  cases h

theorem delimited_cons {d : Char} (hd : d ∈ delimiters) (r : List Char) : Delimited (d :: r) := by
  intro e h
  rw [← Option.some.inj h]
  exact Or.inl hd

theorem delimited_blank {d : Char} (hd : Text.isBlank d = true) (r : List Char) :
    Delimited (d :: r) := by
  intro e h
  rw [← Option.some.inj h]
  exact Or.inr hd

theorem delimited_space (r : List Char) : Delimited (' ' :: r) :=
  delimited_cons (by decide) r

theorem delimited_close (r : List Char) : Delimited (')' :: r) :=
  delimited_cons (by decide) r

theorem Delimited.head?_ne {r : List Char} (hr : Delimited r) {c : Char} (hc : c ∉ delimiters)
    (hblank : ¬Text.isBlank c = true) : r.head? ≠ some c :=
  fun h => (hr c h).elim hc hblank

/-- A run of characters of one class ends where a lexeme does. -/
theorem Delimited.takeWhile_append {p : Char → Bool} {run r : List Char} (hr : Delimited r)
    (hrun : ∀ c ∈ run, p c = true) (hp : delimiters.any p = false)
    (hblank : ∀ {d : Char}, p d = true → Text.isBlank d = false) :
    (run ++ r).takeWhile p = run := by
  refine Text.takeWhile_append_of_head hrun fun d hd => Bool.eq_false_iff.2 fun hpd => ?_
  rcases hr d hd with hmem | hd'
  · exact List.any_eq_false.1 hp d hmem hpd
  · rw [hblank hpd] at hd'
    cases hd'

/-! ## What a first character tells -/

theorem extent_of_lookup {c : Char} {kind : TokenKind} (h : punctuation.lookup c = some kind)
    (cs : List Char) : extent c cs = (kind, 0) := by
  simp only [extent, h]

theorem extent_quote (cs : List Char) :
    extent '"' cs = (.string, (cs.takeWhile (· ≠ '"')).length + 1) := by
  have hlookup : punctuation.lookup '"' = none := by decide
  have hblank : Text.isBlank '"' = false := by decide
  simp [extent, hlookup, hblank]

theorem extent_commentEnd (cs : List Char) : extent '*' ('/' :: cs) = (.blockCommentEnd, 1) := by
  have hlookup : punctuation.lookup '*' = none := by decide
  have hblank : Text.isBlank '*' = false := by decide
  simp [extent, hlookup, hblank]

theorem extent_sign {cs : List Char} (h : cs.head?.any Char.isDigit = true) :
    extent '-' cs = (.number, (cs.takeWhile isNumberChar).length) := by
  have hlookup : punctuation.lookup '-' = none := by decide
  have hblank : Text.isBlank '-' = false := by decide
  simp [extent, hlookup, hblank, h]

theorem extent_dash {cs : List Char} (h : ¬cs.head?.any Char.isDigit = true) :
    extent '-' cs = (.dash, 0) := by
  have hlookup : punctuation.lookup '-' = none := by decide
  have hblank : Text.isBlank '-' = false := by decide
  simp [extent, hlookup, hblank, h]

/-- No character of words is one that means something else. -/
theorem isWordChar_ne {c d : Char} (h : isWordChar c = true) (hd : isWordChar d = false) :
    c ≠ d := by
  rintro rfl
  rw [h] at hd
  cases hd

theorem toNat_of_isWordChar {c : Char} (h : isWordChar c = true) :
    48 ≤ c.toNat ∧ c.toNat ≤ 122 := by
  have hval : c.toNat = c.val.toNat := rfl
  have halpha : c.isAlpha = (c.isUpper || c.isLower) := rfl
  have hupper : c.isUpper = decide (c.val ≥ 'A'.val ∧ c.val ≤ 'Z'.val) := rfl
  have hlower : c.isLower = (decide (c.val ≥ 'a'.val) && decide (c.val ≤ 'z'.val)) := rfl
  simp only [isWordChar, Char.isAlphanum, halpha, hupper, hlower, Char.isDigit,
    Bool.or_eq_true, Bool.and_eq_true, decide_eq_true_eq, UInt32.le_iff_toNat_le, ge_iff_le,
    beq_iff_eq] at h
  rcases h with ((⟨hlo, hhi⟩ | ⟨hlo, hhi⟩) | ⟨hlo, hhi⟩) | rfl
  · have hA : 'A'.val.toNat = 65 := rfl
    have hZ : 'Z'.val.toNat = 90 := rfl
    omega
  · have ha : 'a'.val.toNat = 97 := rfl
    have hz : 'z'.val.toNat = 122 := rfl
    omega
  · have h0 : '0'.val.toNat = 48 := rfl
    have h9 : '9'.val.toNat = 57 := rfl
    omega
  · decide

theorem not_isBlank_of_isWordChar {c : Char} (h : isWordChar c = true) :
    Text.isBlank c = false := by
  obtain ⟨hlo, hhi⟩ := toNat_of_isWordChar h
  simp only [Text.isBlank, Bool.or_eq_false_iff, Bool.and_eq_false_iff, decide_eq_false_iff_not,
    beq_eq_false_iff_ne]
  omega

theorem isWordChar_of_isDigit {c : Char} (h : c.isDigit = true) : isWordChar c = true := by
  simp [isWordChar, Char.isAlphanum, h]

theorem not_isBlank_of_isNumberChar {c : Char} (h : isNumberChar c = true) :
    Text.isBlank c = false := by
  simp only [isNumberChar, Bool.or_eq_true, beq_iff_eq] at h
  rcases h with (h | rfl) | rfl
  · exact not_isBlank_of_isWordChar (isWordChar_of_isDigit h)
  · decide
  · decide

theorem lookup_eq_none_of_isWordChar {c : Char} (h : isWordChar c = true) :
    punctuation.lookup c = none := by
  cases hlookup : punctuation.lookup c with
  | none => rfl
  | some kind =>
    have hall : ∀ p ∈ punctuation, isWordChar p.1 = false := by decide
    have hno := hall (c, kind) (mem_of_lookup hlookup)
    rw [h] at hno
    cases hno

/-- A digit begins a number and any other word character a word. -/
theorem extent_of_isWordChar {c : Char} (h : isWordChar c = true) (cs : List Char) :
    extent c cs =
      if c.isDigit then (.number, (cs.takeWhile isNumberChar).length)
      else (.ofWord (String.ofList (c :: cs.takeWhile isWordChar)),
        (cs.takeWhile isWordChar).length) := by
  have hfeed : c ≠ '\n' := isWordChar_ne h (by decide)
  have hreturn : c ≠ '\r' := isWordChar_ne h (by decide)
  have hslash : c ≠ '/' := isWordChar_ne h (by decide)
  have hstar : c ≠ '*' := isWordChar_ne h (by decide)
  have hquote : c ≠ '"' := isWordChar_ne h (by decide)
  have hdash : c ≠ '-' := isWordChar_ne h (by decide)
  simp [extent, lookup_eq_none_of_isWordChar h, not_isBlank_of_isWordChar h, hfeed, hreturn,
    hslash, hstar, hquote, hdash, h]

/-- A character that begins nothing else is a symbol, unless it is half of a comment mark. -/
theorem extent_other {c : Char} {cs : List Char} (hpunctuation : punctuation.lookup c = none)
    (hblank : ¬Text.isBlank c = true) (hquote : c ≠ '"') (hdash : c ≠ '-')
    (hword : ¬isWordChar c = true) (hslash : cs.head? ≠ some '/') (hstar : cs.head? ≠ some '*') :
    extent c cs = (.symbol, 0) := by
  have hfeed : c ≠ '\n' := Text.ne_of_not_isBlank hblank (by decide)
  have hreturn : c ≠ '\r' := Text.ne_of_not_isBlank hblank (by decide)
  have hdigit : ¬c.isDigit = true := fun h => hword (isWordChar_of_isDigit h)
  simp [extent, hpunctuation, hblank, hquote, hdash, hword, hslash, hstar, hfeed, hreturn, hdigit]

end Lexeme

/-! ## Texts without trivia before them -/

/-- Whether a mask skips all trivia other than line breaks, which it may skip or not. -/
def SkipMask.hidesInline (mask : SkipMask) : Bool :=
  mask.blanks && mask.lineComments && mask.blockComments

namespace Trivia

/-- A text that begins neither with a blank character nor with a comment begins with no trivia,
whatever the mask. -/
theorem read?_eq_none {mask : SkipMask} {c : Char} {cs : List Char}
    (hblank : ¬Text.isBlank c = true)
    (hcomment : c = '/' → cs.head? ≠ some '/' ∧ cs.head? ≠ some '*') :
    read? mask (c :: cs) = none := by
  have hfeed : c ≠ '\n' := Text.ne_of_not_isBlank hblank (by decide)
  have hreturn : c ≠ '\r' := Text.ne_of_not_isBlank hblank (by decide)
  have hline : ¬(c = '/' ∧ cs.head? = some '/') := fun h => (hcomment h.1).1 h.2
  have hblock : ¬(c = '/' ∧ cs.head? = some '*') := fun h => (hcomment h.1).2 h.2
  simp [read?, extent, hblank, hfeed, hreturn, hline, hblock]

/-- Under a mask that skips blanks, a blank character without trivia is a line break. -/
theorem isBreak_of_read?_eq_none {mask : SkipMask} (hm : mask.hidesInline = true) {c : Char}
    {cs : List Char} (h : read? mask (c :: cs) = none) (hblank : Text.isBlank c = true) :
    isBreak c = true := by
  simp only [SkipMask.hidesInline, Bool.and_eq_true] at hm
  obtain ⟨⟨hblanks, -⟩, -⟩ := hm
  cases hbreak : isBreak c with
  | true => rfl
  | false =>
    have hfeed : c ≠ '\n' := by
      rintro rfl
      cases hbreak
    have hreturn : c ≠ '\r' := by
      rintro rfl
      cases hbreak
    simp [read?, extent, hblanks, hblank, hbreak, hfeed, hreturn] at h

/-- Under a mask that skips comments, no comment begins a text without trivia. -/
theorem head?_ne_of_read?_eq_none {mask : SkipMask} (hm : mask.hidesInline = true)
    {cs : List Char} (h : read? mask ('/' :: cs) = none) :
    cs.head? ≠ some '/' ∧ cs.head? ≠ some '*' := by
  simp only [SkipMask.hidesInline, Bool.and_eq_true] at hm
  obtain ⟨⟨-, hlines⟩, hblocks⟩ := hm
  have hblank : Text.isBlank '/' = false := by decide
  constructor
  · intro hhead
    simp [read?, extent, hlines, hblank, hhead] at h
  · intro hhead
    simp [read?, extent, hblocks, hblank, hhead] at h

end Trivia

namespace Lexeme

/-! ## Reading again -/

/-- A lexeme that is read from its spelling, and from no more, wherever a delimiter follows. -/
structure Legible (l : Lexeme) : Prop where
  no_trivia : ∀ r, Delimited r → Trivia.read? .all (l.spelling ++ r) = none
  read_eq : ∀ r, Delimited r → read (l.spelling ++ r) = (l, r)

theorem legible_of_extent {c : Char} {tail : List Char} {kind : TokenKind} (hnul : c ≠ '\x00')
    (hblank : ¬Text.isBlank c = true) (hslash : c = '/' → tail = [])
    (h : ∀ r, Delimited r → extent c (tail ++ r) = (kind, tail.length)) :
    Legible ⟨kind, c :: tail⟩ where
  no_trivia r hr := by
    refine Trivia.read?_eq_none hblank fun hc => ?_
    rw [hslash hc]
    exact ⟨hr.head?_ne (by decide) (by decide), hr.head?_ne (by decide) (by decide)⟩
  read_eq r hr := by
    rw [List.cons_append, read_cons hnul, h r hr, List.take_left, List.drop_left]

/-- A lexeme as its token is written: a string has both quotes. -/
def written (l : Lexeme) : Lexeme :=
  ⟨l.kind, (l.kind.literal l.text).toList⟩

theorem written_of_ne_string {l : Lexeme} (h : l.kind ≠ .string) : l.written = l := by
  obtain ⟨kind, spelling⟩ := l
  simp only [written, TokenKind.literal, text, if_neg h, String.toList_ofList]

theorem written_string (body : List Char) :
    written ⟨.string, '"' :: body⟩ = ⟨.string, '"' :: (body.takeWhile (· ≠ '"') ++ ['"'])⟩ := by
  simp [written, TokenKind.literal, text]

theorem take_takeWhile (p : Char → Bool) (cs : List Char) :
    cs.take (cs.takeWhile p).length = cs.takeWhile p :=
  (List.prefix_iff_eq_take.1 (List.takeWhile_prefix p)).symm

/-- A string between quotes is read up to the second one. -/
theorem legible_string {body : List Char} (h : ∀ c ∈ body, c ≠ '"') :
    Legible ⟨.string, '"' :: (body ++ ['"'])⟩ := by
  refine legible_of_extent (by decide) (by decide) (fun hc => absurd hc (by decide)) fun r _ => ?_
  have hbody : ∀ c ∈ body, decide (c ≠ '"') = true := fun c hc => decide_eq_true (h c hc)
  rw [extent_quote, List.append_assoc, Text.takeWhile_append_of_head hbody (by simp),
    List.length_append, List.length_singleton]

/-- A word is read up to its last character. -/
theorem legible_word {c : Char} {cs : List Char} (h : isWordChar c = true)
    (hdigit : ¬c.isDigit = true) (hall : ∀ d ∈ cs, isWordChar d = true) :
    Legible ⟨.ofWord (String.ofList (c :: cs)), c :: cs⟩ := by
  refine legible_of_extent (isWordChar_ne h (by decide)) (by simp [not_isBlank_of_isWordChar h])
    (fun hc => absurd hc (isWordChar_ne h (by decide))) fun r hr => ?_
  rw [extent_of_isWordChar h, if_neg hdigit,
    hr.takeWhile_append hall (by decide) not_isBlank_of_isWordChar]

/-- A number stops where it did, now because of the delimiter. -/
theorem legible_number {c : Char} {cs : List Char} (h : c.isDigit = true)
    (hall : ∀ d ∈ cs, isNumberChar d = true) : Legible ⟨.number, c :: cs⟩ := by
  have hword := isWordChar_of_isDigit h
  refine legible_of_extent (isWordChar_ne hword (by decide))
    (by simp [not_isBlank_of_isWordChar hword])
    (fun hc => absurd hc (isWordChar_ne hword (by decide))) fun r hr => ?_
  rw [extent_of_isWordChar hword, if_pos h,
    hr.takeWhile_append hall (by decide) not_isBlank_of_isNumberChar]

/-- The digit that makes a dash a sign belongs to the number. -/
theorem legible_signed {d : Char} {cs : List Char} (h : d.isDigit = true)
    (hall : ∀ e ∈ cs, isNumberChar e = true) : Legible ⟨.number, '-' :: d :: cs⟩ := by
  have hnumber : ∀ e ∈ d :: cs, isNumberChar e = true :=
    List.forall_mem_cons.2 ⟨by simp [isNumberChar, h], hall⟩
  refine legible_of_extent (by decide) (by decide) (fun hc => absurd hc (by decide)) fun r hr => ?_
  rw [extent_sign (by simp [h]),
    hr.takeWhile_append hnumber (by decide) not_isBlank_of_isNumberChar]

/-- No digit parts lexemes, so that a dash is no sign where a delimiter follows. -/
theorem legible_dash : Legible ⟨.dash, ['-']⟩ := by
  refine legible_of_extent (by decide) (by decide) (fun hc => absurd hc (by decide)) fun r hr => ?_
  refine extent_dash fun hdigit => ?_
  obtain ⟨d, hd, hdigit⟩ := (Option.any_eq_true _ _).1 hdigit
  have hnone : delimiters.any Char.isDigit = false := by decide
  rcases hr d hd with hmem | hblank
  · exact List.any_eq_false.1 hnone d hmem hdigit
  · rw [not_isBlank_of_isWordChar (isWordChar_of_isDigit hdigit)] at hblank
    cases hblank

/-- **What was read is read again.**  A lexeme that was read where the mask left no trivia is
legible as it is written, unless it is a line break or the end of input. -/
theorem legible_read {mask : SkipMask} (hm : mask.hidesInline = true) {c : Char}
    {cs : List Char} (hnul : c ≠ '\x00') (htrivia : Trivia.read? mask (c :: cs) = none)
    (hnewline : (read (c :: cs)).1.kind ≠ .newline) : Legible (read (c :: cs)).1.written := by
  have hisBreak := Trivia.isBreak_of_read?_eq_none hm htrivia
  rw [read_cons hnul] at hnewline ⊢
  have hshape := shape_extent c cs
  generalize extent c cs = e at hshape hnewline ⊢
  cases hshape with
  | punctuation h =>
    have hmem := mem_of_lookup h
    have hblanks : ∀ p ∈ punctuation, ¬Text.isBlank p.1 = true := by decide
    rw [written_of_ne_string (kind_ne_string_of_mem hmem)]
    exact legible_of_extent hnul (hblanks (c, _) hmem) (fun _ => rfl)
      fun r _ => extent_of_lookup h r
  | lineFeed => exact absurd rfl hnewline
  | carriageReturn => exact absurd rfl hnewline
  | blank h hfeed hreturn =>
    -- it would have been skipped
    have hbreak := hisBreak h
    simp [Trivia.isBreak, hfeed, hreturn] at hbreak
  | lineComment h hnext =>
    subst h
    exact absurd hnext (Trivia.head?_ne_of_read?_eq_none hm htrivia).1
  | blockComment h hnext =>
    subst h
    exact absurd hnext (Trivia.head?_ne_of_read?_eq_none hm htrivia).2
  | commentEnd h hnext =>
    subst h
    obtain ⟨after, rfl⟩ := List.head?_eq_some_iff.1 hnext
    rw [written_of_ne_string TokenKind.noConfusion]
    exact legible_of_extent hnul (by decide) (fun hc => absurd hc (by decide))
      fun r _ => extent_commentEnd r
  | quote h =>
    -- a string that the input cuts off has its closing quote now
    subst h
    rw [written_string]
    exact legible_string fun d hd => of_decide_eq_true (List.all_eq_true.1 List.all_takeWhile d hd)
  | digit h =>
    rw [written_of_ne_string TokenKind.noConfusion, take_takeWhile]
    exact legible_number h (List.all_eq_true.1 List.all_takeWhile)
  | sign h hnext =>
    subst h
    obtain ⟨d, hd, hdigit⟩ := (Option.any_eq_true _ _).1 hnext
    obtain ⟨after, rfl⟩ := List.head?_eq_some_iff.1 hd
    rw [written_of_ne_string TokenKind.noConfusion, take_takeWhile,
      List.takeWhile_cons_of_pos (by simp [isNumberChar, hdigit])]
    exact legible_signed hdigit (List.all_eq_true.1 List.all_takeWhile)
  | dash h hnext =>
    subst h
    rw [written_of_ne_string TokenKind.noConfusion]
    exact legible_dash
  | word h hdigit =>
    rw [written_of_ne_string (TokenKind.ofWord_ne _ rfl), take_takeWhile]
    exact legible_word h hdigit (List.all_eq_true.1 List.all_takeWhile)
  | other hpunctuation hblank hquote hdash hword =>
    -- no delimiter makes a slash or a star half of a comment mark
    rw [written_of_ne_string TokenKind.noConfusion]
    exact legible_of_extent hnul hblank (fun _ => rfl) fun r hr =>
      extent_other hpunctuation hblank hquote hdash hword
        (hr.head?_ne (by decide) (by decide)) (hr.head?_ne (by decide) (by decide))

/-- The quotes of a string do not belong to its text. -/
theorem text_written (l : Lexeme) : l.written.text = l.text := by
  by_cases hstring : l.kind = .string
  · obtain ⟨kind, spelling⟩ := l
    subst hstring
    have hbody : ∀ c ∈ (spelling.drop 1).takeWhile (· ≠ '"'), decide (c ≠ '"') = true :=
      List.all_eq_true.1 List.all_takeWhile
    simp only [written, TokenKind.literal, text, if_true, String.toList_append,
      String.toList_ofList]
    show String.ofList (((spelling.drop 1).takeWhile (· ≠ '"') ++ ['"']).takeWhile (· ≠ '"')) = _
    rw [Text.takeWhile_append_of_head hbody (by simp)]
  · rw [written_of_ne_string hstring]

end Lexeme

/-- **A token that was read while blanks and comments were skipped is legible as it is
written**, and its text is found again, unless it is a line break or the end of input. -/
theorem Token.ReadUnder.legible {t : Token} (h : t.ReadUnder (·.hidesInline = true))
    (heof : t.kind ≠ .eof) (hnewline : t.kind ≠ .newline) :
    Lexeme.Legible ⟨t.kind, t.literal.toList⟩ ∧
      Lexeme.text ⟨t.kind, t.literal.toList⟩ = t.text := by
  rcases h with h | ⟨mask, cs, hm, htrivia, hkind, htext⟩
  · exact absurd h heof
  have hwritten : (Lexeme.read cs).1.written = ⟨t.kind, t.literal.toList⟩ := by
    rw [Token.literal, hkind, htext]
    rfl
  rw [← hwritten, Lexeme.text_written, htext]
  rw [hkind] at heof hnewline
  cases cs with
  | nil => exact absurd rfl heof
  | cons c cs =>
    have hnul : c ≠ '\x00' := by
      rintro rfl
      exact heof rfl
    exact ⟨Lexeme.legible_read hm hnul htrivia hnewline, rfl⟩

end AcsOutline
