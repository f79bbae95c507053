import AcsOutline.Proofs.Scanner.Tiling
import AcsOutline.Proofs.Scanner.Tokens

/-!
# The comments of a source

`Scanner.commentsOf source` are the comments that are skipped where a source is read to its end.
Reading it in another way skips the same comments, even where line breaks are tokens for a while:
what a scanner skips on its way from one token to another are the comments that stand between the
two in the source (`Scanner.filter_triviaSince`).
-/

namespace AcsOutline

namespace Span

theorem Tile.le {lo hi : Nat} {ss : List Span} (h : Tile lo ss hi) : lo ≤ hi := by
  induction ss generalizing lo with
  | nil => exact Nat.le_of_eq h
  | cons s ss ih =>
    obtain ⟨hstart, hlt, htile⟩ := h
    have := ih htile
    omega

/-- Ranges that follow each other lie between the offsets, and none of them is empty. -/
theorem Tile.bounds {lo hi : Nat} {ss : List Span} (h : Tile lo ss hi) :
    ∀ s ∈ ss, lo ≤ s.start ∧ s.start < s.stop ∧ s.stop ≤ hi := by
  induction ss generalizing lo with
  | nil => exact nofun
  | cons s ss ih =>
    obtain ⟨hstart, hlt, htile⟩ := h
    intro r hr
    rcases List.mem_cons.1 hr with rfl | hr
    · exact ⟨Nat.le_of_eq hstart.symm, hlt, htile.le⟩
    · obtain ⟨hle, hne, hstop⟩ := ih htile r hr
      exact ⟨by omega, hne, hstop⟩

end Span

namespace Scanner

variable {s t : Scanner} {source : String}

/-- The comments of a source. -/
def commentsOf (source : String) : List Trivia :=
  (ofString source).readAll.2.commentTrivia

/-- The comments of a source that stand between two offsets. -/
def commentsIn (source : String) (start stop : Nat) : List Trivia :=
  (commentsOf source).filter fun x => start ≤ x.span.start ∧ x.span.stop ≤ stop

/-! ## All comments are found in any case -/

theorem commentTrivia_readAll_next (s : Scanner) :
    s.next.readAll.2.commentTrivia = s.readAll.2.commentTrivia := by
  rw [readAll_eq s]
  by_cases heof : s.next.token.kind = .eof
  · rw [if_pos heof, readAll_eq, if_pos (kind_next_next_of_eof heof)]
    show s.next.skipTrivia.commentTrivia = s.next.commentTrivia
    rw [skipTrivia_next_of_eof heof]
  · rw [if_neg heof]

theorem commentTrivia_readAll_withMask (s : Scanner) {m : SkipMask}
    (hline : m.lineComments = s.mask.lineComments)
    (hblock : m.blockComments = s.mask.blockComments) :
    (s.withMask m).readAll.2.commentTrivia = s.readAll.2.commentTrivia := by
  have hspaced : m.spaced = s.mask.spaced := SkipMask.spaced_eq_of_comments_eq hline hblock
  have habreast : (s.withMask m).Abreast (s.withMask s.mask.spaced) :=
    ⟨rfl, rfl, rfl, hspaced.symm, rfl⟩
  rw [habreast.readAll.2, (abreast_spaced s).readAll.2]

/-- To read on changes nothing about the comments that are found in the end. -/
theorem Reads.commentTrivia_readAll (h : s.Reads t) :
    t.readAll.2.commentTrivia = s.readAll.2.commentTrivia := by
  induction h with
  | refl s => rfl
  | next _ ih => exact (commentTrivia_readAll_next _).trans ih
  | @breaks s t u _ h' ih ih' =>
    have hmask := h'.mask_eq
    have hback : (u.withMask t.mask).readAll.2.commentTrivia = u.readAll.2.commentTrivia :=
      commentTrivia_readAll_withMask u (by rw [hmask]; rfl) (by rw [hmask]; rfl)
    have hforth : (t.withMask { t.mask with newlines := false }).readAll.2.commentTrivia =
        t.readAll.2.commentTrivia := commentTrivia_readAll_withMask t rfl rfl
    rw [hback, ih', hforth, ih]

/-- To read everything is to read tokens. -/
theorem reads_readAll (s : Scanner) : s.Reads s.readAll.2 := by
  rw [readAll_eq]
  by_cases heof : s.next.token.kind = .eof
  · rw [if_pos heof]
    exact (Reads.refl s).next
  · rw [if_neg heof]
    have hlt : s.next.rest.length < s.rest.length := rest_next_length_lt heof
    exact (Reads.refl s).next.trans (reads_readAll s.next)
termination_by s.rest.length

/-! ## Where they stand -/

theorem Aligned.passes_withMask (hs : s.Aligned) (mask : SkipMask) :
    Passes s (s.withMask mask) [] :=
  ⟨hs, rfl, rfl, nofun, (List.append_nil _).symm⟩

/-- On its way a scanner passes over all that stands there. -/
theorem Reads.passes (h : s.Reads t) (hs : s.Aligned) : ∃ ps, Passes s t ps := by
  induction h with
  | refl s => exact ⟨[], .refl hs⟩
  | next _ ih =>
    obtain ⟨ps, hps⟩ := ih hs
    exact ⟨_, hps.trans hps.aligned.passes_next⟩
  | @breaks s t u _ _ ih ih' =>
    obtain ⟨ps, hps⟩ := ih hs
    have hforth := hps.aligned.passes_withMask { t.mask with newlines := false }
    obtain ⟨qs, hqs⟩ := ih' hforth.aligned
    exact ⟨_, ((hps.trans hforth).trans hqs).trans (hqs.aligned.passes_withMask t.mask)⟩

/-- A scanner that stands at its token and has its trivia behind it. -/
structure Placed (s : Scanner) : Prop where
  aligned : s.Aligned
  stop_eq : s.token.span.stop = s.position
  start_le : s.token.span.start ≤ s.token.span.stop
  before : ∀ x ∈ s.trivia, x.span.stop ≤ s.token.span.start

theorem placed_ofString (source : String) : (ofString source).Placed :=
  ⟨aligned_ofList _, rfl, Nat.le_refl _, nofun⟩

theorem Placed.next (h : s.Placed) : s.next.Placed := by
  obtain ⟨ts, hts⟩ := h.aligned.passes_skipTrivia
  have hstart : s.next.token.span.start = s.skipTrivia.position := rfl
  have hle : s.position ≤ s.skipTrivia.position := hts.tile.le
  have hstop := s.stop_next
  refine ⟨h.aligned.passes_next.aligned, hstop, ?_, ?_⟩
  · rw [hstop, hstart]
    exact Nat.le_add_right _ _
  · intro x hx
    rw [hstart]
    rw [show s.next.trivia = s.skipTrivia.trivia from rfl, hts.trivia_eq] at hx
    rcases List.mem_append.1 hx with hx | hx
    · have hbefore := h.before x hx
      have := h.start_le
      have := h.stop_eq
      omega
    · obtain ⟨p, hp, hpx⟩ := List.mem_filterMap.1 hx
      have hbounds := hts.tile.bounds p.span (List.mem_map_of_mem hp)
      cases p with
      | token => cases hpx
      | trivia y =>
        cases hpx
        exact hbounds.2.2

theorem Placed.withMask (h : s.Placed) (mask : SkipMask) : (s.withMask mask).Placed :=
  ⟨h.aligned, h.stop_eq, h.start_le, h.before⟩

theorem Reads.placed (h : s.Reads t) (hs : s.Placed) : t.Placed := by
  induction h with
  | refl s => exact hs
  | next _ ih => exact (ih hs).next
  | breaks _ _ ih ih' => exact (ih' ((ih hs).withMask _)).withMask _

/-- The trivia on a way stands between its ends. -/
theorem Passes.trivia_bounds {ps : List Passed} (h : Passes s t ps) {x : Trivia}
    (hx : x ∈ ps.filterMap Passed.trivia?) :
    s.position ≤ x.span.start ∧ x.span.start < x.span.stop ∧ x.span.stop ≤ t.position := by
  obtain ⟨p, hp, hpx⟩ := List.mem_filterMap.1 hx
  have hbounds := h.tile.bounds p.span (List.mem_map_of_mem hp)
  cases p with
  | token => cases hpx
  | trivia y =>
    cases hpx
    exact hbounds

/-! ## The comments that are left -/

/-- The comments that are still to come. -/
def commentsLeft (s : Scanner) : List Trivia :=
  s.readAll.2.commentTrivia.drop s.commentTrivia.length

theorem commentsLeft_ofString (source : String) :
    (ofString source).commentsLeft = commentsOf source :=
  rfl

theorem Reads.trivia_eq (h : s.Reads t) : t.trivia = s.trivia ++ t.triviaSince s.triviaCount := by
  obtain ⟨later, hlater⟩ := h.follows.skipped_suffix
  have htrivia : t.trivia = s.trivia ++ later.reverse := by
    rw [trivia, ← hlater, List.reverse_append]
    rfl
  rw [triviaSince_triviaCount htrivia, htrivia]

theorem Reads.commentTrivia_eq (h : s.Reads t) : t.commentTrivia =
    s.commentTrivia ++ (t.triviaSince s.triviaCount).filter (·.kind.isComment) := by
  rw [commentTrivia, h.trivia_eq, List.filter_append]
  rfl

/-- Of the comments to come some are skipped on the way, and the others are left. -/
theorem Reads.commentsLeft_eq (h : s.Reads t) : s.commentsLeft =
    (t.triviaSince s.triviaCount).filter (·.kind.isComment) ++ t.commentsLeft := by
  have hall := t.reads_readAll.commentTrivia_eq
  rw [commentsLeft, commentsLeft, ← h.commentTrivia_readAll, hall, List.drop_left,
    h.commentTrivia_eq, List.append_assoc, List.drop_left]

/-- Before the end of input all comments are skipped. -/
theorem commentsLeft_of_eof (h : s.next.token.kind = .eof) : s.commentsLeft =
    (s.next.triviaSince s.triviaCount).filter (·.kind.isComment) := by
  have hnone : s.next.commentsLeft = [] := by
    rw [commentsLeft, readAll_eq, if_pos (kind_next_next_of_eof h)]
    show s.next.skipTrivia.commentTrivia.drop s.next.commentTrivia.length = []
    rw [skipTrivia_next_of_eof h, List.drop_length]
  rw [(Reads.refl s).next.commentsLeft_eq, hnone, List.append_nil]

theorem Reads.position_le (h : s.Reads t) (hs : s.Aligned) : s.position ≤ t.position := by
  obtain ⟨ps, hps⟩ := h.passes hs
  exact hps.tile.le

/-- The next token stands behind what was read. -/
theorem Aligned.position_le_start (hs : s.Aligned) : s.position ≤ s.next.token.span.start := by
  obtain ⟨ts, hts⟩ := hs.passes_skipTrivia
  exact hts.tile.le

/-- The trivia skipped on the way from one token to another stands between them. -/
theorem Reads.triviaSince_bounds (h : s.Reads t) (hs : s.Placed) {x : Trivia}
    (hx : x ∈ t.triviaSince s.triviaCount) : s.position ≤ x.span.start ∧
      x.span.start < x.span.stop ∧ x.span.stop ≤ t.token.span.start := by
  obtain ⟨ps, hps⟩ := h.passes hs.aligned
  have hsince : t.triviaSince s.triviaCount = ps.filterMap Passed.trivia? :=
    triviaSince_triviaCount hps.trivia_eq
  have hbounds := hps.trivia_bounds (hsince ▸ hx)
  have hbefore := (h.placed hs).before x (by
    rw [h.trivia_eq]
    exact List.mem_append_right _ hx)
  exact ⟨hbounds.1, hbounds.2.1, hbefore⟩

/-- The comments that are left stand behind what was read. -/
theorem Placed.commentsLeft_bounds (hs : s.Placed) {x : Trivia} (hx : x ∈ s.commentsLeft) :
    s.position ≤ x.span.start ∧ x.span.start < x.span.stop := by
  have hall := s.reads_readAll.commentTrivia_eq
  rw [commentsLeft, hall, List.drop_left] at hx
  have hbounds := s.reads_readAll.triviaSince_bounds hs (List.mem_filter.1 hx).1
  exact ⟨hbounds.1, hbounds.2.1⟩

/-- **The comments between two tokens.**  What a scanner has skipped on its way from one token to
another are the comments of the source that stand between them. -/
theorem filter_triviaSince (hs : (ofString source).Reads s) (h : s.Reads t) :
    (t.triviaSince s.triviaCount).filter (·.kind.isComment) =
      commentsIn source s.position t.token.span.start := by
  have hplaced : s.Placed := hs.placed (placed_ofString source)
  have hthere : t.Placed := h.placed hplaced
  -- the comments of the source are those before the way, those on it and those behind it
  have hall := commentsLeft_ofString source
  rw [hs.commentsLeft_eq, h.commentsLeft_eq] at hall
  have hbefore : ∀ x ∈ (s.triviaSince (ofString source).triviaCount).filter (·.kind.isComment),
      ¬decide (s.position ≤ x.span.start ∧ x.span.stop ≤ t.token.span.start) = true := by
    intro x hx
    have hbounds := hs.triviaSince_bounds (placed_ofString source) (List.mem_filter.1 hx).1
    have hle := hplaced.start_le
    have hstop := hplaced.stop_eq
    simp only [decide_eq_true_eq]
    omega
  have hway : ∀ x ∈ (t.triviaSince s.triviaCount).filter (·.kind.isComment),
      decide (s.position ≤ x.span.start ∧ x.span.stop ≤ t.token.span.start) = true := by
    intro x hx
    have hbounds := h.triviaSince_bounds hplaced (List.mem_filter.1 hx).1
    simp only [decide_eq_true_eq]
    omega
  have hbehind : ∀ x ∈ t.commentsLeft,
      ¬decide (s.position ≤ x.span.start ∧ x.span.stop ≤ t.token.span.start) = true := by
    intro x hx
    have hbounds := hthere.commentsLeft_bounds hx
    have hle := hthere.start_le
    have hstop := hthere.stop_eq
    simp only [decide_eq_true_eq]
    omega
  rw [commentsIn, ← hall, List.filter_append, List.filter_append, List.filter_eq_nil_iff.2 hbefore,
    List.filter_eq_self.2 hway, List.filter_eq_nil_iff.2 hbehind, List.nil_append, List.append_nil]

end Scanner

end AcsOutline
