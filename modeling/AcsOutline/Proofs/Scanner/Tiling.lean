import AcsOutline.Proofs.Scanner.Spelling
import AcsOutline.Scanner.Command

/-!
# Nothing is lost

Whatever a scanner passes over stands in its record: trivia as it is skipped, and tokens as they
are read.  `Workbench.passed` lists both in the order in which they were scanned.  The main
result (`tiles_passed`) is that their ranges tile the source up to the position of the scanner,
that they begin and end on character boundaries, and that each text is what the source holds
there, up to the marks around it.

The invariant is `Scanner.Aligned`: the position is the length of what stands before the part
that is not read yet.  `Scanner.Passes` says what one walk does, from any aligned scanner to
another; walks compose, so that a list of commands is as good as a single step.
-/

namespace AcsOutline

namespace Text

/-- A byte offset at which a character of a text starts, or at which the text ends. -/
def IsBoundary (cs : List Char) (n : Nat) : Prop :=
  ∃ before after, cs = before ++ after ∧ byteLength before = n

/-- The input ends at a byte offset: the text ends there, or a NUL character stands there. -/
def EndsAt (cs : List Char) (n : Nat) : Prop :=
  n = byteLength cs ∨ ∃ before after, cs = before ++ '\x00' :: after ∧ byteLength before = n

end Text

namespace Span

/-- Ranges that follow each other from one offset to another, with no gap and no overlap, and
none of them empty. -/
def Tile : Nat → List Span → Nat → Prop
  | lo, [], hi => lo = hi
  | lo, s :: ss, hi => s.start = lo ∧ s.start < s.stop ∧ Tile s.stop ss hi

theorem Tile.append {lo mid hi : Nat} {ss ts : List Span} (h : Tile lo ss mid)
    (h' : Tile mid ts hi) : Tile lo (ss ++ ts) hi := by
  induction ss generalizing lo with
  | nil =>
    have hlo : lo = mid := h
    rw [hlo]
    exact h'
  | cons s ss ih => exact ⟨h.1, h.2.1, ih h.2.2⟩

end Span

/-- Something that a scanner has passed over. -/
inductive Passed where
  | trivia (t : Trivia)
  | token (t : Token)

namespace Passed

/-- Where it stands. -/
def span : Passed → Span
  | trivia t => t.span
  | token t => t.span

/-- Its text, without marks. -/
def text : Passed → List Char
  | trivia t => t.text.toList
  | token t => t.text.toList

/-- The mark before its text. -/
def opening : Passed → List Char
  | trivia t => t.kind.opening
  | token t => t.kind.mark

/-- The mark after its text. -/
def closing : Passed → List Char
  | trivia t => t.kind.closing
  | token t => t.kind.mark

/-- The trivia, if it is that. -/
def trivia? : Passed → Option Trivia
  | trivia t => some t
  | token _ => none

/-- It is found in a source where it claims to stand: its range begins and ends between
characters and holds its text between its marks.  The closing mark may only be missing at the
end of the source. -/
structure StandsIn (source : List Char) (p : Passed) : Prop where
  start_boundary : Text.IsBoundary source p.span.start
  stop_boundary : Text.IsBoundary source p.span.stop
  slice_eq :
    Text.slice source p.span.start p.span.stop = p.opening ++ p.text ++ p.closing ∨
      (Text.slice source p.span.start p.span.stop = p.opening ++ p.text ∧
        p.span.stop = Text.byteLength source)

end Passed

namespace Scanner

variable {s t u : Scanner}

/-- The position of a scanner is the length of what it has read of its source. -/
def Aligned (s : Scanner) : Prop :=
  ∃ before, s.source = before ++ s.rest ∧ Text.byteLength before = s.position

theorem aligned_ofList (source : List Char) : (ofList source).Aligned :=
  ⟨[], rfl, rfl⟩

/-- Reading on over a spelling keeps a scanner aligned. -/
theorem Aligned.read_on (hs : s.Aligned) {spelling : List Char}
    (hrest : spelling ++ t.rest = s.rest) (hsource : t.source = s.source)
    (hposition : t.position = s.position + Text.byteLength spelling) : t.Aligned := by
  obtain ⟨before, hbefore, hlength⟩ := hs
  refine ⟨before ++ spelling, ?_, ?_⟩
  · rw [hsource, hbefore, ← hrest, List.append_assoc]
  · rw [hposition, Text.byteLength_append, hlength]

/-- What an aligned scanner reads next stands in the source at its position. -/
theorem Aligned.standsIn (hs : s.Aligned) {p : Passed} {spelling rest : List Char}
    (hrest : spelling ++ rest = s.rest)
    (hspan : p.span = .ofEnds s.position (s.position + Text.byteLength spelling))
    (hmarked : Marked p.opening p.closing p.text spelling rest) : p.StandsIn s.source := by
  obtain ⟨before, hbefore, hlength⟩ := hs
  have hstart : p.span.start = Text.byteLength before := by
    rw [hspan, hlength]
    rfl
  have hstop : p.span.stop = Text.byteLength (before ++ spelling) := by
    rw [hspan, Text.byteLength_append, hlength]
    exact Nat.max_eq_right (Nat.le_add_right _ _)
  have hsource : s.source = before ++ spelling ++ rest := by
    rw [hbefore, ← hrest, List.append_assoc]
  have hslice : Text.slice s.source p.span.start p.span.stop = spelling := by
    rw [hstart, hstop, hsource, Text.slice_append]
  refine ⟨⟨before, s.rest, hbefore, hstart.symm⟩, ⟨_, rest, hsource, hstop.symm⟩, ?_⟩
  rw [hslice]
  rcases hmarked with h | ⟨h, rfl⟩
  · exact Or.inl h
  · refine Or.inr ⟨h, ?_⟩
    rw [hstop, hsource, List.append_nil]

/-- The trivia skipped since a scanner was at a place. -/
theorem triviaSince_triviaCount {later : List Trivia} (h : t.trivia = s.trivia ++ later) :
    t.triviaSince s.triviaCount = later := by
  have hskipped : t.skipped = later.reverse ++ s.skipped := by
    have := congrArg List.reverse h
    simpa [trivia] using this
  simp [triviaSince, triviaCount, hskipped]

/-! ## Walks -/

/-- On its way from `s` to `t` a scanner passed over the things listed, in this order. -/
structure Passes (s t : Scanner) (passed : List Passed) : Prop where
  aligned : t.Aligned
  source_eq : t.source = s.source
  tile : Span.Tile s.position (passed.map Passed.span) t.position
  standsIn : ∀ p ∈ passed, p.StandsIn s.source
  trivia_eq : t.trivia = s.trivia ++ passed.filterMap Passed.trivia?

theorem Passes.refl (hs : s.Aligned) : Passes s s [] :=
  ⟨hs, rfl, rfl, by simp, by simp⟩

theorem Passes.trans {ps qs : List Passed} (h : Passes s t ps) (h' : Passes t u qs) :
    Passes s u (ps ++ qs) where
  aligned := h'.aligned
  source_eq := h'.source_eq.trans h.source_eq
  tile := by
    rw [List.map_append]
    exact h.tile.append h'.tile
  standsIn := by
    intro p hp
    rcases List.mem_append.1 hp with hp | hp
    · exact h.standsIn p hp
    · exact h.source_eq ▸ h'.standsIn p hp
  trivia_eq := by
    rw [h'.trivia_eq, h.trivia_eq, List.filterMap_append, List.append_assoc]

/-- A range over something that is not empty is not empty. -/
theorem byteLength_pos {cs : List Char} (h : cs ≠ []) : 0 < Text.byteLength cs := by
  cases cs with
  | nil => exact absurd rfl h
  | cons c cs =>
    have := Char.utf8Size_pos c
    rw [Text.byteLength_cons]
    omega

/-- A single thing passed over, from its spelling. -/
theorem Aligned.passes_one (hs : s.Aligned) {p : Passed} {spelling : List Char}
    (hne : spelling ≠ []) (hrest : spelling ++ t.rest = s.rest) (hsource : t.source = s.source)
    (hposition : t.position = s.position + Text.byteLength spelling)
    (hspan : p.span = .ofEnds s.position t.position)
    (hmarked : Marked p.opening p.closing p.text spelling t.rest)
    (htrivia : t.trivia = s.trivia ++ [p].filterMap Passed.trivia?) : Passes s t [p] where
  aligned := hs.read_on hrest hsource hposition
  source_eq := hsource
  tile := by
    have hpos := byteLength_pos hne
    have hstop : p.span.stop = t.position := by
      rw [hspan]
      exact Nat.max_eq_right (by omega)
    have hstart : p.span.start = s.position := by
      rw [hspan]
      rfl
    exact ⟨hstart, by omega, hstop⟩
  standsIn := by
    intro q hq
    rw [List.mem_singleton.1 hq]
    exact hs.standsIn hrest (hposition ▸ hspan) hmarked
  trivia_eq := htrivia

theorem Aligned.passes_skip (hs : s.Aligned) {kind : TriviaKind} {spelling rest : List Char}
    (h : Trivia.read? s.mask s.rest = some (kind, spelling, rest)) :
    ∃ t, Passes s (s.skip kind spelling rest) [.trivia t] := by
  have hrest := Trivia.read?_append h
  have hne : spelling ≠ [] := by
    rintro rfl
    have := Trivia.read?_rest_length h
    rw [← hrest, List.nil_append] at this
    exact Nat.lt_irrefl _ this
  refine ⟨_, hs.passes_one hne hrest rfl rfl rfl ?_ List.reverse_cons⟩
  show Marked kind.opening kind.closing (String.ofList (Trivia.textOf kind spelling)).toList
    spelling rest
  rw [String.toList_ofList]
  exact Trivia.marked_of_read? h

/-- All that `skipTrivia` passes over is trivia. -/
theorem Aligned.passes_skipTrivia (hs : s.Aligned) :
    ∃ ts : List Trivia, Passes s s.skipTrivia (ts.map .trivia) := by
  fun_induction skipTrivia s with
  | case1 => exact ⟨[], .refl hs⟩
  | case2 s kind spelling rest h ih =>
    obtain ⟨t, hskip⟩ := hs.passes_skip h
    obtain ⟨ts, hts⟩ := ih hskip.aligned
    exact ⟨t :: ts, hskip.trans hts⟩

/-- What reading a token passes over: that token, unless it is the end of input. -/
def tokenPassed (t : Token) : List Passed :=
  if t.kind = .eof then [] else [.token t]

theorem Aligned.passes_readToken (hs : s.Aligned) :
    Passes s s.readToken (tokenPassed s.readToken.token) := by
  have hrest := Lexeme.read_append s.rest
  have hkind : s.readToken.token.kind = (Lexeme.read s.rest).1.kind := rfl
  by_cases heof : (Lexeme.read s.rest).1.kind = .eof
  · -- nothing is passed over, and the position stays
    have hnil := (Lexeme.spelling_eq_nil_iff s.rest).2 heof
    have hposition : s.readToken.position = s.position := by
      simp only [readToken, hnil, Text.byteLength_nil, Nat.add_zero]
    rw [tokenPassed, hkind, if_pos heof]
    exact ⟨hs.read_on hrest rfl rfl, rfl, hposition.symm, by simp, by simp [trivia, readToken]⟩
  · have hne : (Lexeme.read s.rest).1.spelling ≠ [] := fun h =>
      heof ((Lexeme.spelling_eq_nil_iff s.rest).1 h)
    rw [tokenPassed, hkind, if_neg heof]
    exact hs.passes_one hne hrest rfl rfl rfl (Lexeme.marked_read s.rest) (List.append_nil _).symm

/-- What reading the next token passes over: trivia, and then the token. -/
theorem Aligned.passes_next (hs : s.Aligned) :
    Passes s s.next
      ((s.next.triviaSince s.triviaCount).map .trivia ++ tokenPassed s.next.token) := by
  obtain ⟨ts, hts⟩ := hs.passes_skipTrivia
  have hts' : (ts.map Passed.trivia).filterMap Passed.trivia? = ts := by
    rw [List.filterMap_map]
    exact List.filterMap_some
  have hsince : s.next.triviaSince s.triviaCount = ts := by
    have htrivia := hts.trivia_eq
    rw [hts'] at htrivia
    exact triviaSince_triviaCount htrivia
  rw [hsince]
  exact hts.trans hts.aligned.passes_readToken

/-- A token that ends the input stands where the source ends or at a NUL character. -/
theorem Aligned.endsAt (hs : s.Aligned) (heof : s.next.token.kind = .eof) :
    Text.EndsAt s.source s.next.position := by
  obtain ⟨ts, hts⟩ := hs.passes_skipTrivia
  have hread := hts.aligned.passes_readToken
  obtain ⟨before, hsource, hlength⟩ := hread.aligned
  rw [hread.source_eq, hts.source_eq] at hsource
  have hrest : s.next.rest = [] ∨ ∃ after, s.next.rest = '\x00' :: after := by
    rw [show s.next.rest = s.skipTrivia.rest from rest_readToken_of_eof heof]
    exact Lexeme.eq_nil_or_nul_of_eof heof
  rcases hrest with hnil | ⟨after, hnul⟩
  · left
    rw [hsource, show s.skipTrivia.readToken.rest = [] from hnil, List.append_nil]
    exact hlength.symm
  · right
    exact ⟨before, after, by rw [hsource]; exact congrArg (before ++ ·) hnul, hlength⟩

end Scanner

/-! ## Lists of commands -/

namespace Command

/-- Whether a command reads a token or selects the trivia to skip. -/
def scans : Command → Bool
  | advance | next | setMask _ => true
  | _ => false

/-- Whether a command reads a token. -/
def reads : Command → Bool
  | advance | next => true
  | _ => false

/-- What an answer says was read: a token, unless it is the end of input. -/
def Reply.passed : Reply → List Passed
  | .token t => Scanner.tokenPassed t
  | _ => []

end Command

namespace Workbench

open Scanner

/-- What a command passes over: the trivia that it adds to the record, and the token that it
answers with. -/
def passedBy (w : Workbench) (c : Command) : List Passed :=
  ((w.step c).2.scanner.triviaSince w.scanner.triviaCount).map .trivia ++ (w.step c).1.passed

/-- What a list of commands passes over, in the order in which it was scanned. -/
def passed (w : Workbench) : List Command → List Passed
  | [] => []
  | c :: cs => w.passedBy c ++ (w.step c).2.passed cs

/-- **One command.**  It passes over what it adds to the record and the token it answers. -/
theorem passes_step {w : Workbench} (hw : w.scanner.Aligned) {c : Command}
    (hc : c.scans = true) : Passes w.scanner (w.step c).2.scanner (w.passedBy c) := by
  cases c with
  | next => exact hw.passes_next
  | advance =>
    have hnext := hw.passes_next
    -- the end of input is a fault, but it is read all the same and takes no characters
    by_cases heof : w.scanner.next.token.kind = .eof
    · have hstep : w.step .advance =
          (.fault (.endOfInput w.scanner.next.token.span),
            { w with scanner := w.scanner.next }) := by
        simp only [step, perform, Reading.advance, if_pos heof]
      rw [tokenPassed, if_pos heof] at hnext
      simpa only [passedBy, hstep, Command.Reply.passed] using hnext
    · have hstep : w.step .advance =
          (.token w.scanner.next.token, { w with scanner := w.scanner.next }) := by
        simp only [step, perform, Reading.advance, if_neg heof]
      simpa only [passedBy, hstep, Command.Reply.passed] using hnext
  | setMask mask =>
    have hsince : (w.scanner.withMask mask).triviaSince w.scanner.triviaCount = [] :=
      triviaSince_triviaCount (List.append_nil _).symm
    have hpassed : w.passedBy (.setMask mask) = [] :=
      congrArg (·.map Passed.trivia ++ []) hsince
    rw [hpassed]
    exact ⟨hw, rfl, rfl, by simp, (List.append_nil _).symm⟩
  | _ => cases hc

/-- **Any number of commands.** -/
theorem passes_after {w : Workbench} (hw : w.scanner.Aligned) {cs : List Command}
    (hcs : ∀ c ∈ cs, c.scans = true) : Passes w.scanner (w.after cs).scanner (w.passed cs) := by
  induction cs generalizing w with
  | nil => exact .refl hw
  | cons c cs ih =>
    have hstep := passes_step hw (hcs c (by simp))
    exact hstep.trans (ih hstep.aligned fun d hd => hcs d (by simp [hd]))

/-- A command that reads ends on the token that follows. -/
theorem scanner_step_of_reads (w : Workbench) {c : Command} (hc : c.reads = true) :
    (w.step c).2.scanner = w.scanner.next := by
  cases c with
  | next => rfl
  | advance =>
    show (w.perform Reading.advance .token).2.scanner = w.scanner.next
    rw [perform_snd, Reading.scanner_advance]
  | _ => cases hc

/-- **Nothing is lost.**  After any list of commands that read tokens and select the trivia to
skip, the ranges of the trivia and of the tokens tile the source up to the position of the
scanner; the trivia among them are those of its record; each range begins and ends between
characters and holds the text between its marks.  A command that finds the end of input finds
it where the source ends or at a NUL character. -/
theorem tiles_passed (source : List Char) (cs : List Command)
    (hcs : ∀ c ∈ cs, c.scans = true) :
    let w := ofScanner (.ofList source)
    Span.Tile 0 ((w.passed cs).map Passed.span) (w.after cs).scanner.position ∧
      (w.passed cs).filterMap Passed.trivia? = (w.after cs).scanner.trivia ∧
      (∀ p ∈ w.passed cs, p.StandsIn source) ∧
      ∀ c : Command, c.reads = true → ((w.after cs).step c).2.scanner.token.kind = .eof →
        Text.EndsAt source ((w.after cs).step c).2.scanner.position := by
  intro w
  have h : Passes w.scanner (w.after cs).scanner (w.passed cs) :=
    passes_after (aligned_ofList source) hcs
  refine ⟨h.tile, ?_, h.standsIn, fun c hc heof => ?_⟩
  · rw [h.trivia_eq]
    rfl
  · rw [scanner_step_of_reads _ hc] at heof ⊢
    have hends := h.aligned.endsAt heof
    rwa [h.source_eq] at hends

/-- A comment with a character of two bytes, a blank that is read as a token, and a string that
the input ends: seven bytes of comment, one blank, and the rest. -/
theorem tiles_passed_open_string :
    (∀ c ∈ [Command.setMask (.ofBits 8), .next, .advance, .advance], c.scans = true) ∧
      Span.Tile 0 (((ofScanner (.ofString "/*é\n*/ \"x")).passed
        [.setMask (.ofBits 8), .next, .advance, .advance]).map Passed.span) 10 := by
  have hcs : ∀ c ∈ [Command.setMask (.ofBits 8), .next, .advance, .advance],
      c.scans = true := by decide
  have hposition : ((ofScanner (.ofString "/*é\n*/ \"x")).after
      [.setMask (.ofBits 8), .next, .advance, .advance]).scanner.position = 10 := by
    decide +kernel
  have htile := (tiles_passed "/*é\n*/ \"x".toList _ hcs).1
  exact ⟨hcs, hposition ▸ htile⟩

end Workbench

end AcsOutline
