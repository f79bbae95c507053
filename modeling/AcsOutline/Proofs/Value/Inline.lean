import AcsOutline.Proofs.Scanner.Comments
import AcsOutline.Proofs.Scanner.Mirror
import AcsOutline.Proofs.Scanner.OpenStrings
import AcsOutline.Proofs.Scanner.Prefix
import AcsOutline.Proofs.Scanner.Signs
import AcsOutline.Proofs.Value.Run

/-!
# Texts of values

A text without comments, in which no token ends a value, is one value, whatever stands around it
(`Value.IsInline`).  Its tokens are found where something that parts lexemes follows it, and where
line breaks are trivia as well as where they are tokens (`Scanner.leads_of_isInline`), and from its
tokens the value is read (`Value.read_of_announces`).

The text need not be balanced: parentheses that are opened and not closed in it are closed by what
ends the value.
-/

namespace AcsOutline

open Lexeme (Delimited)

/-! ## Lexemes that are read again -/

namespace Lexeme

variable {mask : SkipMask} {c : Char} {cs r : List Char}

/-- **A lexeme is read again where the text goes on behind it**, whatever the mask. -/
theorem read_append_of_delimited (hm : mask.hidesInline = true) (hnul : c ≠ '\x00')
    (htrivia : Trivia.read? mask (c :: cs) = none) (hnewline : (read (c :: cs)).1.kind ≠ .newline)
    (hclosed : (read (c :: cs)).1.written = (read (c :: cs)).1) (hr : Delimited r) :
    (∀ mask', Trivia.read? mask' (c :: cs ++ r) = none) ∧
      read (c :: cs ++ r) = ((read (c :: cs)).1, (read (c :: cs)).2 ++ r) := by
  refine ⟨fun mask' => Trivia.read?_eq_none (fun hblank => hnewline ?_) ?_, ?_⟩
  · -- blanks are skipped, all but line breaks
    have hbreak := Trivia.isBreak_of_read?_eq_none hm htrivia hblank
    simp only [Trivia.isBreak, Bool.or_eq_true, beq_iff_eq] at hbreak
    rcases hbreak with rfl | rfl <;>
      · rw [read_cons hnul]
        rfl
  · rintro rfl
    obtain ⟨hline, hblock⟩ := Trivia.head?_ne_of_read?_eq_none hm htrivia
    cases cs with
    | nil => exact ⟨hr.head?_ne (by decide) (by decide), hr.head?_ne (by decide) (by decide)⟩
    | cons d ds => exact ⟨hline, hblock⟩
  · by_cases hrest : (read (c :: cs)).2 = []
    · -- the lexeme is the last of the text, and it does not grow into what follows
      have hwhole : (read (c :: cs)).1.spelling = c :: cs := by
        have happend := read_append (c :: cs)
        rwa [hrest, List.append_nil] at happend
      have hlegible := legible_read hm hnul htrivia hnewline
      rw [hclosed] at hlegible
      rw [hrest, List.nil_append, ← hlegible.read_eq r hr, hwhole]
    · exact read_append_right (.inl hrest) r

end Lexeme

/-! ## Tokens of a text -/

/-- Every sort of trivia is skipped but line breaks. -/
def SkipMask.line : SkipMask :=
  { SkipMask.all with newlines := false }

/-- Trivia that is neither a line break nor a comment is one blank character. -/
theorem Trivia.blank_of_read? {mask : SkipMask} (hmask : mask.newlines = false) {cs : List Char}
    {kind : TriviaKind} {spelling rest : List Char}
    (h : read? mask cs = some (kind, spelling, rest)) (hkind : kind.isComment = false) :
    ∃ c, cs = c :: rest ∧ Text.isBlank c = true ∧ isBreak c = false := by
  cases cs with
  | nil => cases h
  | cons c cs =>
    obtain ⟨n, hextent, -, rfl⟩ := read?_cons_eq_some.1 h
    simp only [extent, hmask, Bool.false_eq_true, false_and, if_false] at hextent
    split at hextent
    next hblank =>
      cases hextent
      exact ⟨c, rfl, hblank.2.1, by simpa using hblank.2.2⟩
    · split at hextent
      · cases hextent
        cases hkind
      · split at hextent <;> cases hextent
        cases hkind

namespace Scanner

/-- A scanner before a text whose line breaks are tokens. -/
def onLine (t : List Char) : Scanner :=
  (ofList t).withMask .line

/-- The tokens that are left to read, but for the end of input. -/
def tokensLeft (s : Scanner) : List Token :=
  s.readAll.1.filter (·.kind ≠ .eof)

variable {s : Scanner}

theorem tokensLeft_of_eof (h : s.next.token.kind = .eof) : s.tokensLeft = [] := by
  rw [tokensLeft, readAll_eq, if_pos h]
  simp [h]

theorem tokensLeft_of_ne_eof (h : s.next.token.kind ≠ .eof) :
    s.tokensLeft = s.next.token :: s.next.tokensLeft := by
  rw [tokensLeft, readAll_eq, if_neg h, List.filter_cons_of_pos (by simpa using h), tokensLeft]

/-- Where no comments are skipped, a scanner on a line skips blank characters. -/
theorem exists_blanks (hmask : s.mask.newlines = false)
    (h : ∀ x ∈ s.skipTrivia.skipped, x.kind.isComment = false) :
    ∃ blanks, s.rest = blanks ++ s.skipTrivia.rest ∧
      ∀ c ∈ blanks, Text.isBlank c = true ∧ Trivia.isBreak c = false := by
  fun_induction skipTrivia s with
  | case1 s => exact ⟨[], rfl, List.forall_mem_nil _⟩
  | case2 s kind spelling rest hread ih =>
    have hkind : kind.isComment = false :=
      h ⟨kind, _, _, _⟩ ((follows_skipTrivia (s.skip kind spelling rest)).skipped_suffix.mem
        List.mem_cons_self)
    obtain ⟨c, hrest, hc⟩ := Trivia.blank_of_read? hmask hread hkind
    obtain ⟨blanks, hblanks, hall⟩ := ih hmask h
    refine ⟨c :: blanks, ?_, List.forall_mem_cons.2 ⟨hc, hall⟩⟩
    rw [hrest, List.cons_append, ← hblanks]
    rfl

end Scanner

/-- A text is one value: it holds no comments and no character that ends the input, none of its
tokens ends a value, and none is a string that is cut off. -/
structure Value.IsInline (t : List Char) : Prop where
  nul : '\x00' ∉ t
  comment : (Scanner.onLine t).readAll.2.commentTrivia = []
  goes_on : ∀ x ∈ (Scanner.onLine t).tokensLeft, Value.endsValue x.kind = false
  closed : ∀ x ∈ (Scanner.onLine t).tokensLeft, x.isUnclosedString = false

namespace Scanner

/-- A scanner before the text that is left to another one on a line, and more behind it, finds the
next token of that one. -/
theorem leads_next {s v : Scanner} {r : List Char} (hmask : v.mask = .line)
    (hnul : '\x00' ∉ v.rest) (hgoes : Value.endsValue v.next.token.kind = false)
    (hclosed : v.next.token.isUnclosedString = false) (hr : Delimited r)
    (hs : s.Stands (v.skipTrivia.rest ++ r)) :
    s.Leads [v.next.token.sign] (v.next.rest ++ r) := by
  obtain ⟨c, cs, hcut⟩ : ∃ c cs, v.skipTrivia.rest = c :: cs := by
    refine List.exists_cons_of_ne_nil fun hnil => ?_
    have heof : v.next.token.kind = .eof := by
      show (Lexeme.read v.skipTrivia.rest).1.kind = .eof
      rw [hnil]
      rfl
    rw [heof] at hgoes
    cases hgoes
  have hc : c ≠ '\x00' := by
    rintro rfl
    exact hnul (v.rest_skipTrivia_suffix.mem (hcut ▸ List.mem_cons_self))
  have hnone : Trivia.read? .line v.skipTrivia.rest = none := hmask ▸ v.read?_skipTrivia
  have hnewline : (Lexeme.read v.skipTrivia.rest).1.kind ≠ .newline :=
    Value.ne_of_endsValue hgoes rfl
  have hwritten := written_of_closed hclosed
  rw [hcut] at hnone hnewline hwritten hs
  obtain ⟨htrivia, hread⟩ := Lexeme.read_append_of_delimited rfl hc hnone hnewline hwritten hr
  have hleads := Leads.of_read hs (htrivia s.mask) hread
  rw [← hcut] at hleads
  exact hleads

/-- The tokens that are left of a text on a line are found where more of a text follows it. -/
theorem leads_tokensLeft {s v : Scanner} {r : List Char} (hmask : v.mask = .line)
    (hnul : '\x00' ∉ v.rest) (hcomment : v.readAll.2.commentTrivia = [])
    (hgoes : ∀ x ∈ v.tokensLeft, Value.endsValue x.kind = false)
    (hclosed : ∀ x ∈ v.tokensLeft, x.isUnclosedString = false) (hr : Delimited r)
    (hs : s.Stands (v.rest ++ r)) : s.Leads (v.tokensLeft.map Token.sign) r := by
  rw [← commentTrivia_readAll_next] at hcomment
  have hblank : ∀ x ∈ v.skipTrivia.skipped, x.kind.isComment = false := by
    intro x hx
    have hmem : x ∈ v.next.readAll.2.trivia :=
      List.mem_reverse.2 (v.next.reads_readAll.follows.skipped_suffix.mem hx)
    simpa using List.filter_eq_nil_iff.1 hcomment x hmem
  obtain ⟨blanks, hrest, hblanks⟩ := exists_blanks (by rw [hmask]; rfl) hblank
  rw [hrest, List.append_assoc] at hs
  have hstands := hs.of_append hblanks
  by_cases heof : v.next.token.kind = .eof
  · rw [tokensLeft_of_eof heof]
    rcases Lexeme.eq_nil_or_nul_of_eof heof with hnil | ⟨after, hcut⟩
    · rw [hnil] at hstands
      exact .nil hstands
    · exact absurd (v.rest_skipTrivia_suffix.mem (hcut ▸ List.mem_cons_self)) hnul
  · rw [tokensLeft_of_ne_eof heof] at hgoes hclosed ⊢
    have hfirst := leads_next hmask hnul (hgoes _ List.mem_cons_self)
      (hclosed _ List.mem_cons_self) hr hstands
    have hlt := rest_next_length_lt heof
    have hlater : (s.ahead 1).Leads (v.next.tokensLeft.map Token.sign) r :=
      leads_tokensLeft (v.mask_next.trans hmask) (fun h => hnul (v.rest_next_suffix.mem h))
        hcomment (fun x hx => hgoes x (List.mem_cons_of_mem _ hx))
        (fun x hx => hclosed x (List.mem_cons_of_mem _ hx)) hr hfirst.stands
    exact hfirst.append hlater
termination_by v.rest.length

/-- **The tokens of a value are found where its text stands**, whether line breaks are skipped
there or not. -/
theorem leads_of_isInline {s : Scanner} {t r : List Char} (ht : Value.IsInline t) (hr : Delimited r)
    (hs : s.Stands (t ++ r)) : s.Leads ((onLine t).tokensLeft.map Token.sign) r :=
  leads_tokensLeft rfl ht.nul ht.comment ht.goes_on ht.closed hr hs

/-! ## Values whose tokens are known -/

variable {s : Scanner} {ts : List Token} {closing : Sign}

theorem map_sign_run (h : s.Announces (ts.map Token.sign)) :
    (s.next.run ts.length).map Token.sign = ts.map Token.sign := by
  induction ts generalizing s with
  | nil => rfl
  | cons t ts ih =>
    obtain ⟨⟨hkind, htext⟩, -, hrest⟩ := h
    have hsign : s.next.token.sign = t.sign := by
      rw [Token.sign, hkind, htext t.text rfl]
      rfl
    exact congrArg₂ List.cons hsign (ih hrest)

theorem Announces.kind_next {sign : Sign} {before later : List Sign}
    (h : s.Announces (before ++ sign :: later)) :
    (s.next.ahead before.length).token.kind = sign.kind := by
  rw [ahead_next]
  exact (announces_append.1 h).2.1.1

theorem valueEnds_of_announces (h : s.Announces (ts.map Token.sign ++ [closing]))
    (hgoes : ∀ x ∈ ts, Value.endsValue x.kind = false)
    (hends : Value.endsValue closing.kind = true) : s.next.ValueEnds ts.length := by
  induction ts generalizing s with
  | nil => exact ⟨(congrArg Value.endsValue h.1.1).trans hends, fun i hi => nomatch hi⟩
  | cons t ts ih =>
    have hgo : Value.endsValue s.next.token.kind = false :=
      (congrArg Value.endsValue h.1.1).trans (hgoes t List.mem_cons_self)
    exact (ih h.2.2 fun x hx => hgoes x (List.mem_cons_of_mem t hx)).cons hgo

end Scanner

namespace Value

variable {s : Scanner} {ts : List Token} {closing : Sign}

theorem ofRun_congr {us : List Token} (h : ts.map Token.sign = us.map Token.sign) :
    ofRun ts = ofRun us := by
  have hsigns : ∀ n (ts : List Token), Nest.takeAll n ts =
      (ts.map Token.sign).foldl (fun n x => n.take x.kind (x.text.getD "")) n := fun n ts => by
    rw [List.foldl_map]
    rfl
  rw [ofRun, ofRun, hsigns, hsigns, h]

/-- **A value is read from its tokens**, up to what ends it; only a parenthesis that is opened
directly before the end of input cannot be read. -/
theorem read_of_announces (h : s.Announces (ts.map Token.sign ++ [closing]))
    (hgoes : ∀ x ∈ ts, endsValue x.kind = false) (hends : endsValue closing.kind = true)
    (hlast : closing.kind = .eof → ∀ x ∈ ts.getLast?, x.kind ≠ .lparen) :
    read s.next = .ok (ofRun ts) (s.ahead (ts.length + 1)) := by
  have hstop : ¬s.next.OpensBeforeEnd ts.length := by
    rintro ⟨hpos, hopen, heof⟩
    have hclosing := h.kind_next
    rw [List.length_map, heof] at hclosing
    obtain ⟨us, x, rfl⟩ := ts.eq_nil_or_concat.resolve_left (List.ne_nil_of_length_pos hpos)
    have hkind : (s.next.ahead us.length).token.kind = x.kind := by
      have hx : s.Announces (us.map Token.sign ++ x.sign :: [closing]) := by simpa using h
      have hkind := hx.kind_next
      rw [List.length_map] at hkind
      exact hkind
    rw [List.length_concat, Nat.add_sub_cancel, hkind] at hopen
    exact hlast hclosing.symm x (by simp) hopen
  rw [read_eq (Scanner.valueEnds_of_announces h hgoes hends), if_neg hstop,
    ofRun_congr (Scanner.map_sign_run (Scanner.announces_append.1 h).1)]
  rfl

end Value

end AcsOutline
