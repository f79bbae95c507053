import AcsOutline.Proofs.Value.Brackets
import AcsOutline.Proofs.Value.Line
import AcsOutline.Value.Casts

/-!
# Reading the text of a value

The text of a value that was read is read as that value again, and so is the text of the value
without its casts (`Value.read_text_of_read`).

A value is written as a list of lexemes, one for each leaf and for each parenthesis, and a
scanner at the start of its text reads just these.  To read them is to build the value up again,
since its groups are opened and closed in pairs (`Nest.takeLexemes_write`).  All that is asked of
the value is that its leaves are legible (`Value.read_text`), which leaves that were read are, and
which is not lost where casts are left out.
-/

namespace AcsOutline

/-! ## The lexemes of a value -/

namespace Layout

/-- The lexeme that a leaf is written as. -/
def lexeme (kind : TokenKind) (text : String) : Lexeme :=
  ⟨kind, (kind.literal text).toList⟩

/-- The lexemes of tokens. -/
def lexemes : Layout Lexeme :=
  ⟨fun kind text => [lexeme kind text], [.opening], [.closing]⟩

end Layout

namespace Piece

mutual

theorem write_texts (p : Piece) :
    write .texts p = (write .lexemes p).map fun l => String.ofList l.spelling := by
  cases p with
  | leaf kind text =>
    rw [write, write]
    show [kind.literal text] = [String.ofList (kind.literal text).toList]
    rw [String.ofList_toList]
  | group ps =>
    rw [write, write, writeAll_texts ps, List.map_append, List.map_append]
    rfl

/-- The texts of the tokens are the spellings of the lexemes. -/
theorem writeAll_texts (ps : List Piece) :
    writeAll .texts ps = (writeAll .lexemes ps).map fun l => String.ofList l.spelling := by
  cases ps with
  | nil => rfl
  | cons p ps => rw [writeAll, writeAll, write_texts p, writeAll_texts ps, List.map_append]

end

mutual

theorem cases_of_mem_write {p : Piece} {l : Lexeme} (h : l ∈ write .lexemes p) :
    l = .opening ∨ l = .closing ∨ ∃ f ∈ write .leaves p, l = Layout.lexeme f.1 f.2 := by
  cases p with
  | leaf kind text =>
    rw [write] at h ⊢
    exact Or.inr (Or.inr ⟨(kind, text), List.mem_singleton.2 rfl, List.mem_singleton.1 h⟩)
  | group ps =>
    rw [write] at h ⊢
    rcases List.mem_append.1 h with h | h
    · rcases List.mem_append.1 h with h | h
      · exact Or.inl (List.mem_singleton.1 h)
      · rcases cases_of_mem_writeAll h with h | h | ⟨f, hf, h⟩
        · exact Or.inl h
        · exact Or.inr (Or.inl h)
        · exact Or.inr (Or.inr ⟨f, List.mem_append_left _ (List.mem_append_right _ hf), h⟩)
    · exact Or.inr (Or.inl (List.mem_singleton.1 h))

/-- Every lexeme of a value is a parenthesis or one of its leaves. -/
theorem cases_of_mem_writeAll {ps : List Piece} {l : Lexeme} (h : l ∈ writeAll .lexemes ps) :
    l = .opening ∨ l = .closing ∨ ∃ f ∈ writeAll .leaves ps, l = Layout.lexeme f.1 f.2 := by
  cases ps with
  | nil => cases h
  | cons p ps =>
    rw [writeAll] at h ⊢
    rcases List.mem_append.1 h with h | h
    · rcases cases_of_mem_write h with h | h | ⟨f, hf, h⟩
      · exact Or.inl h
      · exact Or.inr (Or.inl h)
      · exact Or.inr (Or.inr ⟨f, List.mem_append_left _ hf, h⟩)
    · rcases cases_of_mem_writeAll h with h | h | ⟨f, hf, h⟩
      · exact Or.inl h
      · exact Or.inr (Or.inl h)
      · exact Or.inr (Or.inr ⟨f, List.mem_append_right _ hf, h⟩)

end

/-- A value does not end with an opening parenthesis. -/
theorem kind_ne_lparen_of_writeAll {ps : List Piece} {before : List Lexeme} {o : Lexeme}
    (hleaves : ∀ f ∈ writeAll .leaves ps, f.1 ≠ .lparen)
    (h : writeAll .lexemes ps = before ++ [o]) : o.kind ≠ .lparen := by
  -- the last piece is a leaf, which is no parenthesis, or a group, which ends with a closing one
  rcases List.eq_nil_or_concat ps with rfl | ⟨ps', p, hps⟩
  · exact absurd (congrArg List.length h) (by simp [writeAll])
  obtain rfl : ps = ps' ++ [p] := hps.trans List.concat_eq_append
  rw [writeAll_append, writeAll_singleton] at h hleaves
  cases p with
  | leaf kind text =>
    rw [write] at h hleaves
    obtain ⟨-, ho⟩ := List.append_inj' h rfl
    rw [← List.singleton_inj.1 ho]
    exact hleaves (kind, text) (List.mem_append_right _ (List.mem_singleton.2 rfl))
  | group qs =>
    rw [write, ← List.append_assoc] at h
    obtain ⟨-, ho⟩ := List.append_inj' h rfl
    rw [← List.singleton_inj.1 ho]
    decide

end Piece

namespace Value

/-- A leaf that is found again from how it is written. -/
structure LegibleLeaf (kind : TokenKind) (text : String) : Prop where
  legible : (Layout.lexeme kind text).Legible
  text_eq : (Layout.lexeme kind text).text = text
  goes_on : endsValue kind = false
  ne_lparen : kind ≠ .lparen
  ne_rparen : kind ≠ .rparen

/-- A value all of whose leaves are legible. -/
def LegibleLeaves (ps : List Piece) : Prop :=
  ∀ f ∈ Piece.writeAll .leaves ps, LegibleLeaf f.1 f.2

theorem LegibleLeaves.inValue {ps : List Piece} (h : LegibleLeaves ps) :
    ∀ l ∈ Piece.writeAll .lexemes ps, l.InValue := by
  intro l hl
  rcases Piece.cases_of_mem_writeAll hl with hl | hl | ⟨f, hf, rfl⟩
  · exact .opening hl
  · exact .closing hl
  · have hleaf := h f hf
    exact .leaf hleaf.legible hleaf.goes_on hleaf.ne_lparen hleaf.ne_rparen

namespace Nest

theorem takeLexemes_append (n : Nest) (ls ks : List Lexeme) :
    n.takeLexemes (ls ++ ks) = (n.takeLexemes ls).takeLexemes ks :=
  List.foldl_append

mutual

/-- The lexemes of a piece add that piece. -/
theorem takeLexemes_write (n : Nest) (p : Piece)
    (h : ∀ f ∈ Piece.write .leaves p, LegibleLeaf f.1 f.2) :
    n.takeLexemes (Piece.write .lexemes p) = n.push p := by
  cases p with
  | leaf kind text =>
    rw [Piece.write] at h ⊢
    have hleaf : LegibleLeaf kind text := h (kind, text) (List.mem_singleton.2 rfl)
    show n.take kind (Layout.lexeme kind text).text = _
    rw [hleaf.text_eq, take_of_plain n hleaf.ne_lparen hleaf.ne_rparen]
  | group ps =>
    rw [Piece.write] at h ⊢
    have hps : LegibleLeaves ps := fun f hf =>
      h f (List.mem_append_left _ (List.mem_append_right _ hf))
    rw [takeLexemes_append, takeLexemes_append]
    show ((n.openGroup.takeLexemes (Piece.writeAll .lexemes ps)).closeGroup) = _
    rw [takeLexemes_writeAll n.openGroup ps hps]
    show n.push (.group (ps.reverse ++ []).reverse) = _
    rw [List.append_nil, List.reverse_reverse]

/-- The lexemes of a list of pieces add these pieces to the innermost group. -/
theorem takeLexemes_writeAll (n : Nest) (ps : List Piece) (h : LegibleLeaves ps) :
    n.takeLexemes (Piece.writeAll .lexemes ps) = ⟨ps.reverse ++ n.inner, n.outer⟩ := by
  cases ps with
  | nil => rfl
  | cons p ps =>
    unfold LegibleLeaves at h
    rw [Piece.writeAll] at h ⊢
    have hp := takeLexemes_write n p fun f hf => h f (List.mem_append_left _ hf)
    have hps := takeLexemes_writeAll (n.push p) ps fun f hf => h f (List.mem_append_right _ hf)
    rw [takeLexemes_append, hp, hps, List.reverse_cons, List.append_assoc]
    rfl

end

end Nest

/-- **A value with legible leaves is read from its text**, up to the end of input. -/
theorem read_text {v : Value} (h : LegibleLeaves v.pieces) :
    ∃ t, read (Scanner.ofString v.text).next = .ok v t ∧ t.token.kind = .eof := by
  have hline : v.text.toList = Lexeme.line (Piece.writeAll .lexemes v.pieces) := by
    rw [text, tokens, Piece.tokensAll_eq_writeAll, Piece.writeAll_texts,
      Lexeme.toList_join_spaced]
  have hls := h.inValue
  have hawaits := Scanner.awaits_ofString hline
  obtain ⟨hends, heof, htake⟩ := hawaits.value hls
  have hclosed : ¬(Scanner.ofString v.text).next.OpensBeforeEnd
      (Piece.writeAll .lexemes v.pieces).length := by
    intro hopen
    obtain ⟨before, o, hlast, ho⟩ := hawaits.last_of_opensBeforeEnd hls hopen
    exact Piece.kind_ne_lparen_of_writeAll (fun f hf => (h f hf).ne_lparen) hlast ho
  refine ⟨_, ?_, heof⟩
  rw [read_eq hends, if_neg hclosed, ofRun, htake, Nest.takeLexemes_writeAll _ _ h]
  show EStateM.Result.ok (Value.mk (v.pieces.reverse ++ []).reverse) _ = _
  rw [List.append_nil, List.reverse_reverse]

/-! ## Values that were read -/

theorem legibleLeaf_of_readUnder {t : Token} (h : t.ReadUnder (·.hidesInline = true))
    (hgoes : endsValue t.kind = false) (hparenthesis : isParenthesis t.kind = false) :
    LegibleLeaf t.kind t.text := by
  have heof : t.kind ≠ .eof := ne_of_endsValue hgoes rfl
  have hnewline : t.kind ≠ .newline := ne_of_endsValue hgoes rfl
  obtain ⟨hlegible, htext⟩ := h.legible heof hnewline
  obtain ⟨hopen, hclose⟩ := (isParenthesis_eq_false_iff t.kind).1 hparenthesis
  exact ⟨hlegible, htext, hgoes, hopen, hclose⟩

/-- The leaves of a run are legible, if its tokens were read while blanks and comments were
skipped and none of them ends values. -/
theorem legibleLeaves_ofRun {ts : List Token} (h : ∀ t ∈ ts, t.ReadUnder (·.hidesInline = true))
    (hgoes : ∀ t ∈ ts, endsValue t.kind = false) : LegibleLeaves (ofRun ts).pieces := by
  intro f hf
  rw [show Piece.writeAll .leaves (ofRun ts).pieces = _ from leaves_ofRun ts] at hf
  obtain ⟨t, ht, rfl⟩ := List.mem_map.1 hf
  obtain ⟨ht, hparenthesis⟩ := List.mem_filter.1 ht
  exact legibleLeaf_of_readUnder (h t ht) (hgoes t ht) (by simpa using hparenthesis)

/-- A value that was read where no mask but such as skip blanks and comments was selected has
legible leaves. -/
theorem legibleLeaves_of_read (source : List Char) {cs : List Command}
    (hcs : ∀ mask, .setMask mask ∈ cs → mask.hidesInline = true) {v : Value} {t : Scanner}
    (h : read ((Workbench.ofScanner (.ofList source)).after cs).scanner = .ok v t) :
    LegibleLeaves v.pieces := by
  have hsound := @Workbench.sound_after (·.hidesInline = true) rfl source cs hcs
  obtain ⟨n, hn⟩ :=
    ((Workbench.ofScanner (.ofList source)).after cs).scanner.exists_valueEnds
  rw [read_eq hn] at h
  split at h
  · cases h
  · obtain ⟨rfl, -⟩ := EStateM.Result.ok.inj h
    exact legibleLeaves_ofRun (fun u hu => Scanner.readUnder_of_mem_run hsound hu)
      fun u hu => hn.of_mem_run hu

end Value

namespace Piece

mutual

theorem leaves_stripCasts_subset (d : Dialect) (p : Piece) :
    writeAll .leaves (stripCasts d p) ⊆ write .leaves p := by
  cases p with
  | leaf kind text =>
    rw [stripCasts, writeAll_singleton]
    exact List.Subset.refl _
  | group ps =>
    rw [stripCasts]
    split
    · exact List.nil_subset _
    · rw [writeAll_singleton, write, write]
      have hps := leaves_stripCastsAll_subset d ps
      simpa [Layout.leaves] using hps

/-- Leaving out casts adds no leaves. -/
theorem leaves_stripCastsAll_subset (d : Dialect) (ps : List Piece) :
    writeAll .leaves (stripCastsAll d ps) ⊆ writeAll .leaves ps := by
  cases ps with
  | nil => exact List.Subset.refl _
  | cons p ps =>
    rw [stripCastsAll, writeAll_append, writeAll]
    exact List.append_subset.2
      ⟨List.subset_append_of_subset_left _ (leaves_stripCasts_subset d p),
        List.subset_append_of_subset_right _ (leaves_stripCastsAll_subset d ps)⟩

end

end Piece

namespace Value

theorem LegibleLeaves.stripCasts {v : Value} (h : LegibleLeaves v.pieces) (d : Dialect) :
    LegibleLeaves (v.stripCasts d).pieces :=
  fun f hf => h f (Piece.leaves_stripCastsAll_subset d v.pieces hf)

/-- **The text of a value that was read is read as that value**, and the text of the value
without its casts as the value without its casts; both times up to the end of input.  The value
may have been read from any scanner that commands reach, as long as these select no other mask
than the one that skips all trivia and the one that skips all but line breaks. -/
theorem read_text_of_read (source : List Char) {cs : List Command}
    (hcs : ∀ mask, .setMask mask ∈ cs →
      mask = .all ∨ mask = { SkipMask.all with newlines := false })
    {v : Value} {t : Scanner}
    (h : read ((Workbench.ofScanner (.ofList source)).after cs).scanner = .ok v t)
    (d : Dialect) :
    (∃ t', read (Scanner.ofString v.text).next = .ok v t' ∧ t'.token.kind = .eof) ∧
      ∃ t', read (Scanner.ofString (v.stripCasts d).text).next = .ok (v.stripCasts d) t' ∧
        t'.token.kind = .eof := by
  have hhides : ∀ mask, .setMask mask ∈ cs → mask.hidesInline = true := by
    intro mask hmask
    rcases hcs mask hmask with rfl | rfl <;> rfl
  have hleaves := legibleLeaves_of_read source hhides h
  exact ⟨read_text hleaves, read_text (hleaves.stripCasts d)⟩

/-- A closing parenthesis too many, a dash before a number, a slash before a group and before a
star, a mark that ends comments, a string over two lines that holds parentheses, a symbol of two
bytes, a string that is cut off and groups without an end. -/
theorem read_text_of_read_unbalanced :
    ∃ v t, read ((Workbench.ofScanner (.ofList
        ") - 5(/ (fixed) * -1.2.x \"a)(\n//b\" */ é ( \"cut".toList)).after
          [.setMask { SkipMask.all with newlines := false }, .next]).scanner = .ok v t ∧
      v.text = "- 5 (/ (fixed) * -1.2. x \"a)(\n//b\" */ é (\"cut\"))" ∧
      (v.stripCasts .standard).text = "- 5 (/ * -1.2. x \"a)(\n//b\" */ é (\"cut\"))" ∧
      (∃ t', read (Scanner.ofString v.text).next = .ok v t' ∧ t'.token.kind = .eof) ∧
      ∃ t', read (Scanner.ofString (v.stripCasts .standard).text).next =
        .ok (v.stripCasts .standard) t' ∧ t'.token.kind = .eof := by
  have hcs : ∀ mask,
      Command.setMask mask ∈ [.setMask { SkipMask.all with newlines := false }, .next] →
        mask = .all ∨ mask = { SkipMask.all with newlines := false } := by
    intro mask hmask
    exact Or.inr (by simpa using hmask)
  have hends : Scanner.ValueEnds ((Workbench.ofScanner (.ofList
      ") - 5(/ (fixed) * -1.2.x \"a)(\n//b\" */ é ( \"cut".toList)).after
        [.setMask { SkipMask.all with newlines := false }, .next]).scanner 16 :=
    ⟨by decide +kernel, by decide +kernel⟩
  have hread := (read_eq hends).trans (if_neg (by decide +kernel))
  exact ⟨_, _, hread, by decide +kernel, by decide +kernel,
    read_text_of_read _ hcs hread .standard⟩

end Value

end AcsOutline
