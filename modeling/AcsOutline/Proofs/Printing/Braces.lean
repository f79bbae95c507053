import AcsOutline.Proofs.Grammar.Basic
import AcsOutline.Proofs.Grammar.Blocks
import AcsOutline.Proofs.Printing.Readings

/-!
# Printed braces

What stands between braces is read by the depth of braces alone.  A block ends at the first token
that brings the depth back (`Grammar.skipTo_eq`), and the initialiser of a struct is made of the
literals up to it.

The initialiser of an array is kept as it is written, whatever it holds.  A scanner in the middle
of a page reads it as a fresh scanner reads it alone: the page is cut behind it, where the two
agree because the text goes on up to its last brace, and before it (`Scanner.PassesGroup`).
-/

namespace AcsOutline

open Printing

namespace Scanner

variable {s t : Scanner}

theorem Counted.ahead (h : s.Counted) (n : Nat) : (s.ahead n).Counted := by
  induction n generalizing s with
  | zero => exact h
  | succ n ih => exact ih h.next

end Scanner

namespace Grammar

open Reading

variable {s : Scanner} {v : String} {ws : List String} {b : List Char} {rs : List String}

/-! ## Blocks -/

/-- An empty block is skipped. -/
theorem gives_skipTo {s : Scanner} (h : s.At ⟨"\x7b", "\x7d" :: ws, b, rs⟩) (what : String) :
    ∃ t, skipTo s.bracesBefore what s.token.span s = .ok () t ∧ t.At ⟨"\x7d", ws, b, rs⟩ := by
  have hopen := (h.shows spells_lbrace).kind_eq
  have hnext := h.next spells_rbrace
  have hcloses : s.ClosesAt 1 := by
    refine ⟨?_, fun m hm => ?_⟩
    · show Token.CloseOne [s.next.token]
      rw [Token.CloseOne, List.countP_singleton, List.countP_singleton,
        (hnext.shows spells_rbrace).kind_eq]
      rfl
    · obtain rfl : m = 0 := by omega
      exact (by decide : ¬Token.CloseOne [])
  exact ⟨s.next, (skipTo_body what s.token.span hopen).1 1 hcloses, hnext⟩

/-! ## Initialisers of structs -/

section Records

variable {depth : Int} (opening : Span) (found : List String)

theorem recordFrom_close (hs : s.braces = depth + 1) (h : s.At ⟨v, "\x7d" :: ws, b, rs⟩) :
    recordFrom depth opening found s = .ok found.reverse s.next := by
  have hkind := ((h.next spells_rbrace).shows spells_rbrace).kind_eq
  have hbraces : s.next.braces = depth := by
    rw [Scanner.braces_next, hkind, hs]
    show depth + 1 + -1 = depth
    omega
  rw [recordFrom_eq (by rw [hkind]; decide), if_pos hbraces]

theorem recordFrom_comma (hs : s.braces = depth + 1) (h : s.At ⟨v, "," :: ws, b, rs⟩) :
    recordFrom depth opening found s = recordFrom depth opening found s.next ∧
      s.next.braces = depth + 1 := by
  have hkind := ((h.next spells_comma).shows spells_comma).kind_eq
  have hbraces : s.next.braces = depth + 1 := by
    rw [Scanner.braces_next, hkind, hs]
    exact Int.add_zero _
  refine ⟨?_, hbraces⟩
  rw [recordFrom_eq (by rw [hkind]; decide), if_neg (by omega), if_pos hkind]

theorem recordFrom_literal {x text : String} {kind : TokenKind} (hs : s.braces = depth + 1)
    (h : s.At ⟨v, x :: ws, b, rs⟩) (hx : Spells x kind text) (hliteral : kind.literal text = x)
    (hcomma : kind ≠ .comma) (hstep : Scanner.braceStep kind = 0) :
    recordFrom depth opening found s = recordFrom depth opening (x :: found) s.next ∧
      s.next.braces = depth + 1 := by
  have hshows := (h.next hx).shows hx
  have hbraces : s.next.braces = depth + 1 := by
    rw [Scanner.braces_next, hshows.kind_eq, hs, hstep]
    exact Int.add_zero _
  refine ⟨?_, hbraces⟩
  rw [recordFrom_eq (hshows.kind_ne hx.ne_eof), if_neg (by omega), if_neg (hshows.kind_ne hcomma),
    Token.literal, hshows.kind_eq, hshows.text_eq, hliteral]

/-- The literals up to the closing brace are found one by one. -/
theorem exists_recordFrom {values : List String} (hvalues : ∀ x ∈ values, IsLiteral x)
    (hs : s.braces = depth + 1)
    (h : s.At ⟨v, listed (values.map fun x => [x]) ++ "\x7d" :: ws, b, rs⟩) :
    ∃ u, recordFrom depth opening found s = .ok (found.reverse ++ values) u ∧
      u.At ⟨"\x7d", ws, b, rs⟩ := by
  induction values generalizing s found v with
  | nil =>
    rw [List.append_nil]
    exact ⟨s.next, recordFrom_close opening found hs h, h.next spells_rbrace⟩
  | cons x xs ih =>
    obtain ⟨kind, text, hx, hliteral, hcomma, hstep⟩ :=
      (hvalues x List.mem_cons_self).spells
    have hxs := fun y hy => hvalues y (List.mem_cons_of_mem x hy)
    cases xs with
    | nil =>
      rw [List.map_singleton, listed, List.intercalate_singleton, List.singleton_append] at h
      obtain ⟨hround, hbraces⟩ := recordFrom_literal opening found hs h hx hliteral hcomma hstep
      refine ⟨s.next.next, ?_, (h.next hx).next spells_rbrace⟩
      rw [hround, recordFrom_close opening _ hbraces (h.next hx), List.reverse_cons]
    | cons y ys =>
      rw [List.map_cons, List.map_cons, listed, List.intercalate_cons_cons, List.append_assoc,
        List.append_assoc, List.singleton_append, List.singleton_append] at h
      obtain ⟨hround, hbraces⟩ := recordFrom_literal opening found hs h hx hliteral hcomma hstep
      have hnext := h.next hx
      obtain ⟨hround', hbraces'⟩ := recordFrom_comma opening (x :: found) hbraces hnext
      obtain ⟨u, hu, hat⟩ := ih (x :: found) hxs hbraces' (hnext.next spells_comma)
      refine ⟨u, ?_, hat⟩
      rw [hround, hround', hu, List.reverse_cons, List.append_assoc]
      rfl

end Records

theorem gives_recordInitializer {values : List String} (hvalues : ∀ x ∈ values, IsLiteral x) :
    recordInitializer.Gives ⟨v, "\x7b" :: (listed (values.map fun x => [x]) ++ "\x7d" :: ws), b, rs⟩
      values ⟨"\x7d", ws, b, rs⟩ := by
  intro s h
  have hnext := h.next spells_lbrace
  have hkind := (hnext.shows spells_lbrace).kind_eq
  have hbraces : s.next.braces = s.braces + 1 := by
    rw [Scanner.braces_next, hkind]
    rfl
  obtain ⟨u, hu, hat⟩ := exists_recordFrom s.next.token.span [] hvalues hbraces hnext
  refine ⟨u, ?_, hat⟩
  show (advance >>= fun opening => recordFrom s.braces opening.span []) s = _
  rw [advance_bind, if_neg (by rw [hkind]; decide)]
  exact hu

end Grammar

/-! ## Initialisers of arrays -/

namespace Printing.IsBraceGroup

variable {text : String} {n i : Nat}

theorem exists_toList_eq (h : IsBraceGroup text n) : ∃ cs, text.toList = '{' :: cs :=
  List.head?_eq_some_iff.1 h.opens

/-- A group is not trivia, whatever follows it. -/
theorem no_trivia (h : IsBraceGroup text n) (mask : SkipMask) (after : List Char) :
    Trivia.read? mask (text.toList ++ after) = none := by
  obtain ⟨cs, hcs⟩ := h.exists_toList_eq
  rw [hcs, List.cons_append]
  exact Trivia.read?_eq_none (by decide) fun hc => absurd hc (by decide)

theorem kind_first (h : IsBraceGroup text n) :
    (Scanner.ofString text).next.token.kind = .lbrace := by
  have hskip : (Scanner.ofString text).skipTrivia = .ofString text := by
    have hnone := h.no_trivia .all []
    rw [List.append_nil] at hnone
    exact Scanner.skipTrivia_of_none hnone
  obtain ⟨cs, hcs⟩ := h.exists_toList_eq
  show (Lexeme.read (Scanner.ofString text).skipTrivia.rest).1.kind = .lbrace
  rw [hskip, show (Scanner.ofString text).rest = '{' :: cs from hcs, Lexeme.read_cons (by decide),
    Lexeme.extent_of_lookup (by decide : _ = some TokenKind.lbrace)]

/-- The last brace of a group closes the first one. -/
theorem closesAt (h : IsBraceGroup text n) : (Scanner.ofString text).next.ClosesAt n := by
  have hone : (Scanner.ofString text).next.braces = 1 := by
    rw [Scanner.braces_next, h.kind_first]
    rfl
  refine ⟨?_, fun m hm hcloses => ?_⟩
  · rw [Scanner.closeOne_run_iff, h.closed, hone]
    rfl
  · have hinner := h.inner m hm
    rw [Scanner.closeOne_run_iff, hone] at hcloses
    omega

theorem kind_ne_eof (h : IsBraceGroup text n) (hi : i ≤ n) :
    ((Scanner.ofString text).next.ahead i).token.kind ≠ .eof := by
  cases i with
  | zero =>
    show (Scanner.ofString text).next.token.kind ≠ .eof
    rw [h.kind_first]
    decide
  | succ i => exact h.closesAt.ne_eof hi

theorem kind_last (h : IsBraceGroup text n) :
    ((Scanner.ofString text).next.ahead n).token.kind = .rbrace :=
  h.closesAt.kind_eq

/-- Behind each token of a group stands more of it, or the token is the last brace. -/
theorem goes_on (h : IsBraceGroup text n) (hi : i ≤ n) :
    ((Scanner.ofString text).next.ahead i).rest ≠ [] ∨
      ∃ c, (c, ((Scanner.ofString text).next.ahead i).token.kind) ∈ Lexeme.punctuation := by
  rcases Nat.lt_or_eq_of_le hi with hi | rfl
  · left
    intro hnil
    have heof := Scanner.kind_next_of_rest_nil hnil
    rw [← Scanner.ahead_succ] at heof
    exact h.kind_ne_eof hi heof
  · right
    rw [h.kind_last]
    exact ⟨'}', by decide⟩

/-- All comments of a group are passed where its last brace is read. -/
theorem comments_eq (h : IsBraceGroup text n) :
    ((Scanner.ofString text).next.ahead n).comments = remarks text := by
  have hstep : ∀ s : Scanner, s.next.token.kind ≠ .eof → s.readAll.2 = s.next.readAll.2 := by
    intro s hs
    rw [Scanner.readAll, dif_neg hs]
  have hahead : ∀ i ≤ n,
      (Scanner.ofString text).readAll.2 = ((Scanner.ofString text).next.ahead i).readAll.2 := by
    intro i
    induction i with
    | zero => exact fun hi => hstep _ (h.kind_ne_eof hi)
    | succ i ih =>
      intro hi
      have hne := h.kind_ne_eof hi
      rw [Scanner.ahead_succ] at hne ⊢
      rw [ih (Nat.le_of_succ_le hi), hstep _ hne]
  have heof := Scanner.kind_next_of_rest_nil h.ends
  have hskip : ((Scanner.ofString text).next.ahead n).skipTrivia =
      (Scanner.ofString text).next.ahead n :=
    Scanner.skipTrivia_of_none (by rw [h.ends]; rfl)
  rw [remarks, hahead n (Nat.le_refl n), Scanner.readAll, dif_pos heof]
  show _ = Trivia.lineComments ((Scanner.ofString text).next.ahead n).skipTrivia.trivia
  rw [hskip]
  rfl

end Printing.IsBraceGroup

theorem Trivia.lineComments_move (m : Move) (ts : List Trivia) :
    lineComments (ts.map (Trivia.move m)) = lineComments ts := by
  rw [lineComments, lineComments, List.filter_map, List.map_map]
  rfl

namespace Scanner

variable {s t : Scanner} {m : Shift} {text : String} {n : Nat} {after : List Char}

/-- The comments of a scanner that reads a whole source are those before the part and those of the
scanner that reads the part. -/
theorem Alongside.comments_eq (h : Alongside m s t) :
    s.comments = Trivia.lineComments m.skipped.reverse ++ t.comments := by
  rw [comments, trivia, h.skipped_eq, List.reverse_append, Trivia.lineComments_append,
    ← List.map_reverse, Trivia.lineComments_move]
  rfl

/-- A text that goes on behind a group is read like the group, up to its last brace. -/
theorem mirrors_group (h : IsBraceGroup text n) (after : List Char) {i : Nat} (hi : i ≤ n) :
    Mirrors ⟨[], text.toList, after, 0, [], .all, Or.inr ⟨rfl, rfl⟩⟩
      ((ofList (text.toList ++ after)).next.ahead i) ((ofString text).next.ahead i) := by
  have hstart : Alongside ⟨[], text.toList, after, 0, [], .all, Or.inr ⟨rfl, rfl⟩⟩
      (ofList (text.toList ++ after)) (ofString text) :=
    ⟨rfl, rfl, rfl, rfl, rfl, rfl, rfl, rfl, rfl, counted_ofList _⟩
  induction i with
  | zero => exact hstart.next (hstart.inside (h.goes_on hi))
  | succ i ih =>
    have hgoes := h.goes_on hi
    rw [ahead_succ] at hgoes
    rw [ahead_succ, ahead_succ]
    have halong := (ih (Nat.le_of_succ_le hi)).toAlongside
    exact halong.next (halong.inside hgoes)

/-- What a scanner finds where it faces a group: the group is behind it after `n` more tokens. -/
structure PassesGroup (s : Scanner) (text : String) (n : Nat) (after : List Char) : Prop where
  kind_first : s.next.token.kind = .lbrace
  kind_last : (s.next.ahead n).token.kind = .rbrace
  inner : ∀ i < n, s.braces < (s.next.ahead i).braces
  closed : (s.next.ahead n).braces = s.braces
  rest_eq : (s.next.ahead n).rest = after
  comments_eq : (s.next.ahead n).comments = s.comments ++ remarks text
  slice_eq : Text.slice (s.next.ahead n).source s.next.token.span.start
    (s.next.ahead n).token.span.stop = text.toList

/-- A scanner that faces a text reads it like a scanner that starts with it. -/
theorem Faces.mirrors {cs : List Char} (hs : s.Faces cs) (hmask : s.mask = .all)
    (hcs : Trivia.read? s.mask cs = none) :
    ∃ before, s.skipTrivia.position = Text.byteLength before ∧ ∀ i,
      Mirrors ⟨before, cs, [], s.braces, s.skipTrivia.skipped, .all, Or.inl rfl⟩
        (s.next.ahead i) ((ofList cs).next.ahead i) := by
  obtain ⟨hrest, -⟩ := hs.skip hcs
  obtain ⟨before, hsource, hlength, hline, -⟩ := hs.counted.skipTrivia
  rw [hrest] at hsource
  have halong : Alongside ⟨before, cs, [], s.braces, s.skipTrivia.skipped, .all, Or.inl rfl⟩
      s.skipTrivia (ofList cs) :=
    { whole_eq := by rw [hsource, List.append_nil]
      part_eq := rfl
      rest_eq := by rw [hrest, List.append_nil]; rfl
      position_eq := by rw [← hlength]; exact (Nat.zero_add _).symm
      line_eq := by rw [← hline]; exact Nat.add_comm _ _
      braces_eq := by rw [braces_skipTrivia]; exact (Int.zero_add _).symm
      whole_mask := by rw [mask_skipTrivia, hmask]
      part_mask := rfl
      skipped_eq := rfl
      counted := counted_ofList cs }
  refine ⟨before, hlength.symm, fun i => ?_⟩
  induction i with
  | zero =>
    rw [← next_skipTrivia]
    exact halong.next List.nil_suffix
  | succ i ih =>
    rw [ahead_succ, ahead_succ]
    exact ih.toAlongside.next List.nil_suffix

/-- **A group is read in the middle of a source as it is read alone.** -/
theorem Faces.passesGroup (hs : s.Faces (text.toList ++ after)) (hmask : s.mask = .all)
    (h : IsBraceGroup text n) : s.PassesGroup text n after := by
  obtain ⟨hrest, -⟩ := hs.skip (h.no_trivia s.mask after)
  obtain ⟨before, hposition, hwhole⟩ := hs.mirrors hmask (h.no_trivia s.mask after)
  have hpart := fun {i} (hi : i ≤ n) => mirrors_group h after hi
  have hkind : ∀ {i}, i ≤ n → (s.next.ahead i).token.kind =
      ((ofString text).next.ahead i).token.kind := by
    intro i hi
    rw [(hwhole i).token_eq, (hpart hi).token_eq]
    rfl
  have hbraces : ∀ {i}, i ≤ n → (s.next.ahead i).braces =
      ((ofString text).next.ahead i).braces + s.braces := by
    intro i hi
    rw [(hwhole i).braces_eq, (hpart hi).braces_eq, Int.add_zero]
  have hblanks : Trivia.lineComments s.skipTrivia.skipped.reverse = s.comments := by
    obtain ⟨-, hskips⟩ := hs.skip (h.no_trivia s.mask after)
    exact hskips.comments_eq
  constructor
  · rw [← h.kind_first]
    exact hkind (Nat.zero_le n)
  · rw [← h.kind_last]
    exact hkind (Nat.le_refl n)
  · intro i hi
    have hinner := h.inner i hi
    rw [hbraces (Nat.le_of_lt hi)]
    omega
  · rw [hbraces (Nat.le_refl n), h.closed, Int.zero_add]
  · rw [(hwhole n).rest_eq, (hpart (Nat.le_refl n)).rest_eq, h.ends, List.append_nil]
    rfl
  · rw [(hwhole n).toAlongside.comments_eq, (hpart (Nat.le_refl n)).toAlongside.comments_eq,
      h.comments_eq, hblanks]
    rfl
  · obtain ⟨all, hall, hlength, -⟩ := (hpart (Nat.le_refl n)).counted
    rw [(hpart (Nat.le_refl n)).part_eq, h.ends, List.append_nil] at hall
    have hstart : s.next.token.span.start = Text.byteLength before := hposition
    have hstop : (s.next.ahead n).token.span.stop = Text.byteLength (before ++ text.toList) := by
      rw [ahead_next, stop_next, ← ahead_next, (hwhole n).position_eq,
        (hpart (Nat.le_refl n)).position_eq, ← hlength, ← hall, Text.byteLength_append]
      exact Nat.add_comm _ _
    rw [(hwhole n).whole_eq, hstart, hstop, List.append_nil, ← List.append_assoc,
      Text.slice_append]

end Scanner

/-- The initialiser of an array is kept as it is written, and its comments are passed. -/
theorem Grammar.gives_arrayInitializer {text v : String} {n : Nat} {ws : List String}
    {b : List Char} {rs : List String} (h : IsBraceGroup text n) :
    Reading.Gives arrayInitializer ⟨v, text :: ws, b, rs⟩ text ⟨"\x7d", ws, b, rs ++ remarks text⟩ := by
  intro s hs
  have hfaces := hs.faces
  rw [page_cons] at hfaces
  have hgroup := hfaces.passesGroup hs.mask_eq h
  refine ⟨s.next.ahead n, ?_, ?_⟩
  · have hexpect := expect_of_lbrace hgroup.kind_first "`\x7b` to open the array initializer"
    have hskip : skipTo s.braces "array initializer" s.next.token.span s.next =
        .ok () (s.next.ahead n) :=
      skipTo_eq "array initializer" s.next.token.span hgroup.inner (Int.le_of_eq hgroup.closed)
    refine Reading.bind_eq_ok.2 ⟨_, s, rfl, Reading.bind_eq_ok.2 ⟨_, _, hexpect,
      Reading.bind_eq_ok.2 ⟨_, _, hskip, ?_⟩⟩⟩
    show EStateM.Result.ok (String.ofList _) _ = _
    rw [hgroup.slice_eq, String.ofList_toList]
  · have hmask : (s.next.ahead n).mask = .all := ((s.mask_ahead (n + 1)).trans hs.mask_eq)
    refine ⟨fun {kind' text'} hw => ?_, ⟨_, hgroup.rest_eq, fun c hc => eq_space_of_mem_gap hc⟩,
      hs.counted.next.ahead n, hmask, ?_⟩
    · obtain ⟨rfl, rfl⟩ := spells_rbrace.unique hw
      have hread : (s.next.ahead n).token.ReadUnder fun _ => True := by
        rw [Scanner.ahead_next]
        exact (Scanner.sound_next trivial).token_read
      exact ⟨hgroup.kind_last, hread.text_eq (d := '}') (by rw [hgroup.kind_last]; decide), by
        rw [Token.isUnclosedString, hgroup.kind_last]
        rfl⟩
    · rw [hgroup.comments_eq, hs.comments_eq]

end AcsOutline
