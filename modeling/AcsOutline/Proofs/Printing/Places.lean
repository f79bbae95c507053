import AcsOutline.Proofs.Printing.Words

/-!
# Places on a page

A scanner that reads a printed line stands between two of its words: it has read one and faces
those that follow (`Scanner.At`).  To read a token is to move on by one word
(`Scanner.At.next`), and what is skipped on the way is blank, so that it holds no comments.
-/

namespace AcsOutline

namespace Printing

/-! ## Pages -/

/-- What stands on a page from some words of a line on; `below` are the lines after it. -/
def page (words : List String) (below : List Char) : List Char :=
  (line words).toList ++ '\n' :: below

@[simp]
theorem page_nil (below : List Char) : page [] below = '\n' :: below := rfl

theorem page_cons (w : String) (ws : List String) (below : List Char) :
    page (w :: ws) below = w.toList ++ ((gap w ws.head?).toList ++ page ws below) := by
  rw [page, page, line, String.toList_append, String.toList_append, List.append_assoc,
    List.append_assoc]

/-- Between two words stands at most a space. -/
theorem eq_space_of_mem_gap {w : String} {next : Option String} {c : Char}
    (h : c ∈ (gap w next).toList) : c = ' ' := by
  cases next with
  | none => cases h
  | some k =>
    rw [gap] at h
    split at h
    · cases h
    · exact List.mem_singleton.1 h

/-- A word stops where the next one begins. -/
theorem stops_page (w : String) (ws : List String) (below : List Char) :
    Stops w ((gap w ws.head?).toList ++ page ws below) := by
  cases ws with
  | nil => exact Or.inr (Lexeme.delimited_cons (by decide) below)
  | cons k ws =>
    rw [List.head?_cons, gap]
    split
    next h =>
      refine h.imp_right fun hk => ?_
      have hall : tightBefore.all (fun k => Lexeme.delimiters.any (k.toList == [·])) = true := by
        decide
      obtain ⟨d, hd, hk⟩ := List.any_eq_true.1 (List.all_eq_true.1 hall k hk)
      rw [page_cons, beq_iff_eq.1 hk]
      exact Lexeme.delimited_cons hd _
    · exact Or.inr (Lexeme.delimited_space _)

end Printing

open Printing

/-! ## What scanners say and face -/

/-- A token has a kind and a text, and if it is a string, it is closed. -/
structure Token.Shows (t : Token) (kind : TokenKind) (text : String) : Prop where
  kind_eq : t.kind = kind
  text_eq : t.text = text
  closed : t.isUnclosedString = false

theorem Token.Shows.kind_ne {t : Token} {kind kind' : TokenKind} {text : String}
    (h : t.Shows kind text) (hne : kind ≠ kind') : t.kind ≠ kind' :=
  h.kind_eq ▸ hne

theorem Trivia.lineComments_append (ts us : List Trivia) :
    lineComments (ts ++ us) = lineComments ts ++ lineComments us := by
  rw [lineComments, lineComments, lineComments, List.filter_append, List.map_append]

theorem Trivia.lineComments_eq_nil {ts : List Trivia} (h : ∀ t ∈ ts, t.kind.isComment = false) :
    lineComments ts = [] := by
  refine List.map_eq_nil_iff.2 (List.filter_eq_nil_iff.2 fun t ht hkind => ?_)
  have hcomment := h t ht
  rw [beq_iff_eq.1 hkind] at hcomment
  cases hcomment

namespace Scanner

/-- `t` has gone on from `s` over blanks and line breaks only. -/
def SkipsBlanks (s t : Scanner) : Prop :=
  ∃ later, t.skipped = later ++ s.skipped ∧ ∀ x ∈ later, x.kind.isComment = false

theorem SkipsBlanks.refl (s : Scanner) : s.SkipsBlanks s :=
  ⟨[], rfl, fun _ h => nomatch h⟩

theorem SkipsBlanks.trans {s t u : Scanner} (h : s.SkipsBlanks t) (h' : t.SkipsBlanks u) :
    s.SkipsBlanks u := by
  obtain ⟨later, ht, hlater⟩ := h
  obtain ⟨later', hu, hlater'⟩ := h'
  refine ⟨later' ++ later, by rw [hu, ht, List.append_assoc], fun x hx => ?_⟩
  exact (List.mem_append.1 hx).elim (hlater' x) (hlater x)

theorem skipsBlanks_skip (s : Scanner) {kind : TriviaKind} (hkind : kind.isComment = false)
    (spelling rest : List Char) : s.SkipsBlanks (s.skip kind spelling rest) :=
  ⟨[_], rfl, fun _ hx => by rw [List.mem_singleton.1 hx]; exact hkind⟩

theorem SkipsBlanks.comments_eq {s t : Scanner} (h : s.SkipsBlanks t) :
    t.comments = s.comments := by
  obtain ⟨later, hskipped, hlater⟩ := h
  have hnone : Trivia.lineComments later.reverse = [] :=
    Trivia.lineComments_eq_nil fun x hx => hlater x (List.mem_reverse.1 hx)
  rw [comments, comments, trivia, trivia, hskipped, List.reverse_append,
    Trivia.lineComments_append, hnone, List.append_nil]

/-- Blanks that the mask has skipped, and line breaks if it has these skipped too. -/
def Blanks (mask : SkipMask) (cs : List Char) : Prop :=
  ∀ c ∈ cs, c = ' ' ∨ (c = '\n' ∧ mask.newlines = true)

/-- A scanner has a text before it, perhaps after blanks, and its mask has blanks skipped. -/
structure Faces (s : Scanner) (text : List Char) : Prop where
  rest_eq : ∃ blanks, s.rest = blanks ++ text ∧ Blanks s.mask blanks
  mask_blanks : s.mask.blanks = true
  counted : s.Counted

/-- Characters that are trivia each are skipped, up to a text that is no trivia. -/
theorem skipTrivia_of_each {s : Scanner} {blanks text : List Char} (hrest : s.rest = blanks ++ text)
    (hblanks : ∀ c ∈ blanks, ∃ kind : TriviaKind, kind.isComment = false ∧
      ∀ rest, Trivia.read? s.mask (c :: rest) = some (kind, [c], rest))
    (htext : Trivia.read? s.mask text = none) :
    s.skipTrivia.rest = text ∧ s.SkipsBlanks s.skipTrivia := by
  induction blanks generalizing s with
  | nil =>
    rw [List.nil_append] at hrest
    rw [skipTrivia_of_none (by rw [hrest]; exact htext)]
    exact ⟨hrest, .refl s⟩
  | cons c blanks ih =>
    obtain ⟨kind, hkind, hread⟩ := hblanks c List.mem_cons_self
    obtain ⟨hrest', hskips⟩ := ih (s := s.skip kind [c] (blanks ++ text)) rfl
      (fun d hd => hblanks d (List.mem_cons_of_mem c hd)) htext
    rw [skipTrivia_of_some (by rw [hrest]; exact hread _)]
    exact ⟨hrest', (skipsBlanks_skip s hkind _ _).trans hskips⟩

/-- Blanks are skipped, up to a text that is no trivia. -/
theorem skipTrivia_blanks {s : Scanner} {blanks text : List Char} (hrest : s.rest = blanks ++ text)
    (hblanks : Blanks s.mask blanks) (hmask : s.mask.blanks = true)
    (htext : Trivia.read? s.mask text = none) :
    s.skipTrivia.rest = text ∧ s.SkipsBlanks s.skipTrivia := by
  refine skipTrivia_of_each hrest (fun c hc => ?_) htext
  rcases hblanks c hc with rfl | ⟨rfl, hnewlines⟩
  · exact ⟨.whitespace, rfl, fun rest => by
      simp [Trivia.read?, Trivia.extent, hmask, Trivia.isBreak,
        show Text.isBlank ' ' = true from rfl]⟩
  · exact ⟨.newline, rfl, fun rest => by simp [Trivia.read?, Trivia.extent, hnewlines]⟩

namespace Faces

variable {s : Scanner}

/-- The next token is read from the text behind the blanks. -/
theorem skip {text : List Char} (h : s.Faces text) (htext : Trivia.read? s.mask text = none) :
    s.skipTrivia.rest = text ∧ s.SkipsBlanks s.next := by
  obtain ⟨blanks, hrest, hblanks⟩ := h.rest_eq
  exact skipTrivia_blanks hrest hblanks h.mask_blanks htext

/-- **The word that a scanner faces is the next token.** -/
theorem next {w text : String} {kind : TokenKind} {r : List Char} (h : s.Faces (w.toList ++ r))
    (hw : Spells w kind text) (hr : Stops w r) :
    s.next.token.Shows kind text ∧ s.next.rest = r ∧ s.SkipsBlanks s.next := by
  obtain ⟨hrest, hskips⟩ := h.skip (Trivia.read?_of_all (hw.no_trivia r hr) _)
  have hread : Lexeme.read s.skipTrivia.rest = (⟨kind, w.toList⟩, r) := by
    rw [hrest, hw.read_eq r hr]
  have hkind : s.next.token.kind = kind := congrArg (·.1.kind) hread
  have htext : s.next.token.text = text := (congrArg (·.1.text) hread).trans hw.text_eq
  refine ⟨⟨hkind, htext, ?_⟩, congrArg (·.2) hread, hskips⟩
  rw [Token.isUnclosedString, htext, hkind]
  by_cases hstring : kind = .string
  · subst hstring
    have hspan : s.next.token.span.length = Text.byteLength w.toList := by
      show (Span.ofEnds _ (_ + Text.byteLength (Lexeme.read s.skipTrivia.rest).1.spelling)).length = _
      rw [hread]
      exact (congrArg (· - _) (Nat.max_eq_right (Nat.le_add_right _ _))).trans
        (Nat.add_sub_cancel_left _ _)
    rw [hspan, hw.closed]
    simp
  · rw [beq_eq_false_iff_ne.2 hstring, Bool.false_and]

/-- A scanner faces the words behind the one that it reads. -/
theorem next_page {w text : String} {kind : TokenKind} {ws : List String} {below : List Char}
    (h : s.Faces (page (w :: ws) below)) (hw : Spells w kind text) :
    s.next.token.Shows kind text ∧ s.next.rest = (gap w ws.head?).toList ++ page ws below ∧
      s.SkipsBlanks s.next := by
  rw [page_cons] at h
  exact h.next hw (stops_page w ws below)

/-- A line break that is not skipped is the next token. -/
theorem next_break {below : List Char} (h : s.Faces (page [] below))
    (hmask : s.mask.newlines = false) :
    s.next.token.kind = .newline ∧ s.next.rest = below ∧ s.SkipsBlanks s.next := by
  have hnone : Trivia.read? s.mask (page [] below) = none := by
    simp [Trivia.read?, Trivia.extent, hmask, Trivia.isBreak]
  obtain ⟨hrest, hskips⟩ := h.skip hnone
  have hread : Lexeme.read s.skipTrivia.rest = (⟨.newline, ['\n']⟩, below) := by
    rw [hrest]
    rfl
  exact ⟨congrArg (·.1.kind) hread, congrArg (·.2) hread, hskips⟩

end Faces

end Scanner

/-! ## Places -/

/-- A place on a printed line. -/
structure Place where
  /-- The word that was read last. -/
  word : String
  /-- The words that follow on the line. -/
  ahead : List String
  /-- What stands below the line. -/
  below : List Char
  /-- The line comments that were passed. -/
  remarks : List String

/-- A scanner that skips all trivia is at a place of a page; only spaces stand between the word
that it has read and those that follow. -/
structure Scanner.At (s : Scanner) (p : Place) : Prop where
  shows : ∀ {kind text}, Spells p.word kind text → s.token.Shows kind text
  rest_eq : ∃ spaces, s.rest = spaces ++ page p.ahead p.below ∧ ∀ c ∈ spaces, c = ' '
  counted : s.Counted
  mask_eq : s.mask = .all
  comments_eq : s.comments = p.remarks

namespace Scanner.At

variable {s : Scanner} {p : Place} {v w text : String} {ws : List String} {b : List Char}
  {rs : List String} {kind : TokenKind}

/-- What stands on the line is also what a scanner with another mask faces, if that mask has blanks
skipped. -/
theorem faces_withMask (h : s.At p) {mask : SkipMask} (hmask : mask.blanks = true) :
    (s.withMask mask).Faces (page p.ahead p.below) := by
  obtain ⟨spaces, hrest, hspaces⟩ := h.rest_eq
  exact ⟨⟨spaces, hrest, fun c hc => Or.inl (hspaces c hc)⟩, hmask, h.counted⟩

theorem faces (h : s.At p) : s.Faces (page p.ahead p.below) := by
  have hmask : s.withMask .all = s := by
    rw [← h.mask_eq]
    rfl
  have hfaces : (s.withMask .all).Faces (page p.ahead p.below) := h.faces_withMask rfl
  rwa [hmask] at hfaces

/-- A scanner that was before a line is at its first word after it has read that. -/
theorem of_faces (h : s.Faces (page (w :: ws) b)) (hmask : s.mask = .all)
    (hw : Spells w kind text) : s.next.At ⟨w, ws, b, s.comments⟩ := by
  obtain ⟨hshows, hrest, hskips⟩ := h.next_page hw
  refine ⟨fun {kind' text'} hw' => ?_, ⟨_, hrest, fun c hc => eq_space_of_mem_gap hc⟩,
    h.counted.next, ?_, hskips.comments_eq⟩
  · obtain ⟨rfl, rfl⟩ := hw.unique hw'
    exact hshows
  · rw [mask_next, hmask]

/-- **A scanner goes on by one word.** -/
theorem next (h : s.At ⟨v, w :: ws, b, rs⟩) (hw : Spells w kind text) :
    s.next.At ⟨w, ws, b, rs⟩ := by
  have hnext := of_faces h.faces h.mask_eq hw
  rwa [h.comments_eq] at hnext

end Scanner.At

end AcsOutline
