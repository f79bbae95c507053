import AcsOutline.Proofs.Grammar.LikeForms
import AcsOutline.Proofs.Scanner.Comments

/-!
# Places in a source

A range marks a source where both of its ends stand between characters of it (`Span.Marks`), and a
source has as many lines as it has line breaks, and one more (`Text.HasLine`).  The token of a
scanner has such a place (`Scanner.Sited`), whatever was read; so has what is found before the next
token; and so has every place that a declaration points at where it is rejected
(`Scanner.Sited.recognize`).
-/

namespace AcsOutline

namespace Text

theorem countBreaks_le_append (before after : List Char) :
    countBreaks before ≤ countBreaks (before ++ after) := by
  induction before using countBreaks.induct with
  | case1 => exact Nat.zero_le _
  | case2 cs ih =>
    rw [List.cons_append, List.cons_append, countBreaks, countBreaks]
    omega
  | case3 c cs hpair hbreak ih
  | case4 c cs hpair hbreak ih =>
    have hfirst := not_splitsBreak_of_not_pair hpair
    rw [countBreaks_cons hfirst, List.cons_append]
    by_cases hsplit : SplitsBreak [c] (cs ++ after)
    · -- the first line break goes on in what is added
      obtain ⟨hc, hhead⟩ := hsplit
      obtain rfl : c = '\r' := Option.some.inj hc
      cases cs with
      | nil =>
        obtain ⟨ds, hds⟩ := List.head?_eq_some_iff.1 hhead
        rw [hds, countBreaks, countBreaks]
        simp
      | cons d ds => exact absurd ⟨rfl, by simpa using hhead⟩ hfirst
    · rw [countBreaks_cons hsplit]
      omega

/-- A text has a line with this number, where the first line is one. -/
def HasLine (cs : List Char) (n : Nat) : Prop :=
  1 ≤ n ∧ n ≤ 1 + countBreaks cs

end Text

/-- Both ends of a range stand between characters of a source. -/
structure Span.Marks (source : List Char) (r : Span) : Prop where
  start_boundary : Text.IsBoundary source r.start
  stop_boundary : Text.IsBoundary source r.stop

variable {source : List Char} {r r' : Span}

/-- A range of a source ends before the source does. -/
theorem Span.Marks.stop_le (h : r.Marks source) : r.stop ≤ Text.byteLength source := by
  obtain ⟨before, after, rfl, hlength⟩ := h.stop_boundary
  rw [Text.byteLength_append, hlength]
  exact Nat.le_add_right _ _

theorem Span.Marks.union (h : r.Marks source) (h' : r'.Marks source) :
    (r.union r').Marks source where
  start_boundary := by
    show Text.IsBoundary source (min r.start r'.start)
    rcases Nat.le_total r.start r'.start with hle | hle
    · rw [Nat.min_eq_left hle]
      exact h.start_boundary
    · rw [Nat.min_eq_right hle]
      exact h'.start_boundary
  stop_boundary := by
    show Text.IsBoundary source (max r.stop r'.stop)
    rcases Nat.le_total r.stop r'.stop with hle | hle
    · rw [Nat.max_eq_right hle]
      exact h'.stop_boundary
    · rw [Nat.max_eq_left hle]
      exact h.stop_boundary

/-- A token has a place in a source. -/
structure Token.Sited (source : List Char) (t : Token) : Prop where
  marks : t.span.Marks source
  hasLine : Text.HasLine source t.line

namespace Scanner

variable {s t : Scanner}

/-- A scanner that reads a source, with a token that has a place in it. -/
structure Sited (source : List Char) (s : Scanner) : Prop where
  source_eq : s.source = source
  counted : s.Counted
  token : s.token.Sited source

/-- A scanner is on a line of its source. -/
theorem Counted.hasLine (h : s.Counted) : Text.HasLine s.source s.line := by
  obtain ⟨before, hsource, -, hline, -⟩ := h
  have hle := Text.countBreaks_le_append before s.rest
  rw [Text.HasLine, hsource, ← hline]
  omega

theorem Sited.hasLine (h : s.Sited source) : Text.HasLine source s.line :=
  h.source_eq ▸ h.counted.hasLine

theorem sited_ofList (source : List Char) : (ofList source).Sited source where
  source_eq := rfl
  counted := counted_ofList source
  token := ⟨⟨⟨[], source, rfl, rfl⟩, ⟨[], source, rfl, rfl⟩⟩, ⟨Nat.le_refl 1, Nat.le_add_right 1 _⟩⟩

/-- **The token that is read next has a place**: it begins where the trivia before it ends, and ends
where the scanner is then. -/
theorem Sited.next (h : s.Sited source) : s.next.Sited source := by
  have hskip := h.counted.skipTrivia
  have hnext := h.counted.next
  have hsource : s.skipTrivia.source = source := s.follows_skipTrivia.source_eq.trans h.source_eq
  have hsource' : s.next.source = source := s.follows_next.source_eq.trans h.source_eq
  refine ⟨hsource', hnext, ⟨?_, ?_⟩, hsource ▸ hskip.hasLine⟩
  · exact hsource ▸ hskip.boundary
  · rw [s.stop_next]
    exact hsource' ▸ hnext.boundary

theorem Sited.withMask (h : s.Sited source) (mask : SkipMask) : (s.withMask mask).Sited source :=
  ⟨h.source_eq, h.counted, h.token⟩

theorem Reads.sited (h : s.Reads t) (hs : s.Sited source) : t.Sited source := by
  induction h with
  | refl s => exact hs
  | next _ ih => exact (ih hs).next
  | breaks _ _ ih ih' => exact (ih' ((ih hs).withMask _)).withMask _

/-- What is found before the next token has a place as well. -/
theorem Sited.marks_of_mem_triviaSince (h : s.Sited source) {x : Trivia}
    (hx : x ∈ s.next.triviaSince s.triviaCount) : x.span.Marks source := by
  have hpasses := h.counted.aligned.passes_next
  have hstands := hpasses.standsIn (.trivia x)
    (List.mem_append_left _ (List.mem_map_of_mem hx))
  rw [h.source_eq] at hstands
  exact ⟨hstands.start_boundary, hstands.stop_boundary⟩

/-! ## Declarations -/

/-- A scanner that has a place in a source is like itself. -/
theorem likeness_sited (source : List Char) :
    Likeness (fun t t' => t = t' ∧ t.Sited source) (fun s s' => s = s' ∧ s.Sited source)
      (fun s s' => s = s' ∧ s.Sited source) := by
  have w : Walk (fun t t' => t = t' ∧ t.Sited source) fun s s' => s = s' ∧ s.Sited source :=
    .diagonal Sited.token Sited.next
  exact .diagonal w w (fun hs => hs.withMask _) fun _ hu => hu.withMask _

end Scanner

/-- Where a fault is at tokens that have a place, so have its labels. -/
theorem Fault.Like.marks {fault fault' : Fault}
    (h : fault.Like (fun t t' => t = t' ∧ t.Sited source) fault') :
    ∀ label ∈ fault.labels, label.span.Marks source := by
  have hone : ∀ {t : Token} {text : String}, t.Sited source →
      ∀ label ∈ [Label.primary t.span text], label.span.Marks source := by
    intro t text ht label hlabel
    rw [List.mem_singleton.1 hlabel]
    exact ht.marks
  cases h with
  | repeatedModifier ht hu =>
    intro label hlabel
    rcases List.mem_cons.1 hlabel with rfl | hlabel
    · exact hu.2.marks
    · rw [List.mem_singleton.1 hlabel]
      exact ht.2.marks
  | endOfInput h | endBefore _ h | wrongToken _ h | openString h | openBody _ h | unknownStart h
  | unmatchedBrace h => exact hone h.2

/-- **A rejected declaration points into its source**: so do the labels of the fault, and the
scanner stops at a token that has a place. -/
theorem Scanner.Sited.recognize {first : Scanner} (h : first.Sited source) {builder : Builder}
    {rejection : Rejection} {desk : Desk}
    (hrecognize : AcsOutline.recognize ⟨first, builder⟩ = .error rejection desk) :
    (∀ label ∈ rejection.fault.labels, label.span.Marks source) ∧ desk.scanner.Sited source := by
  have hlike := like_recognize (likeness_sited source) steady_eq (d := ⟨first, builder⟩)
    ⟨⟨rfl, h⟩, rfl⟩
  rw [hrecognize] at hlike
  exact ⟨hlike.1.fault.marks, hlike.2.scanner.2⟩

end AcsOutline
