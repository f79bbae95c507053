import AcsOutline.Proofs.Doc.Sections

/-!
# Line breaks in documentation

Between tokens a line ends with a line feed, with a return and a line feed, or with a lone return.
The lines of a documentation comment end with line feeds only: written with other breaks
(`Doc.respell`), a comment is read as if its lines were joined at the lone returns
(`Doc.joined`, `Doc.ofComment_respell`).  A return before a line feed does not matter, and a lone
return only where something is said on both sides of it.
-/

namespace AcsOutline

namespace Doc

open Text

/-- A text with its line feeds written as chosen, one by one. -/
def respell (choice : Nat → LineBreak) : List Char → List Char
  | [] => []
  | c :: cs =>
    if c = '\n' then (choice 0).spelling ++ respell (fun i => choice (i + 1)) cs
    else c :: respell choice cs

/-- Lines joined at the breaks that are lone returns. -/
def joined (choice : Nat → LineBreak) : List (List Char) → List (List Char)
  | line :: next :: rest =>
    let lines := joined (fun i => choice (i + 1)) (next :: rest)
    if choice 0 = .ret then lines.modifyHead (line ++ '\r' :: ·) else line :: lines
  | lines => lines

variable {choice : Nat → LineBreak}

/-- To put a character before the first line and to join lines commute. -/
theorem joined_modifyHead (choice : Nat → LineBreak) (c : Char) (lines : List (List Char)) :
    joined choice (lines.modifyHead (c :: ·)) = (joined choice lines).modifyHead (c :: ·) := by
  rcases lines with _ | ⟨line, _ | ⟨next, rest⟩⟩
  · rfl
  · rfl
  · rw [List.modifyHead_cons, joined, joined]
    split
    · rw [List.modifyHead_modifyHead]
      rfl
    · rfl

theorem joined_ne_nil {lines : List (List Char)} (h : lines ≠ []) : joined choice lines ≠ [] := by
  induction lines generalizing choice with
  | nil => exact absurd rfl h
  | cons line lines ih =>
    rcases lines with _ | ⟨next, rest⟩
    · exact h
    · rw [joined]
      split
      · exact fun hnil => ih (List.cons_ne_nil _ _) (List.modifyHead_eq_nil_iff.1 hnil)
      · exact List.cons_ne_nil _ _

/-- Without lone returns the lines stay as they are. -/
theorem joined_eq_self (h : ∀ i, choice i ≠ .ret) (lines : List (List Char)) :
    joined choice lines = lines := by
  induction lines generalizing choice with
  | nil => rfl
  | cons line lines ih =>
    rcases lines with _ | ⟨next, rest⟩
    · rfl
    · rw [joined, if_neg (h 0), ih fun i => h (i + 1)]

/-- **The lines of a respelled text are the joined lines**, but for the returns before line feeds.
-/
theorem forall₂_joined (choice : Nat → LineBreak) (text : List Char) :
    List.Forall₂ LineEnd (joined choice (text.splitOn '\n'))
      ((respell choice text).splitOn '\n') := by
  induction text generalizing choice with
  | nil => exact .cons (.inl rfl) .nil
  | cons c cs ih =>
    by_cases hc : c = '\n'
    · subst hc
      have hlines := ih fun i => choice (i + 1)
      rw [respell, if_pos rfl, splitOn_sep]
      obtain ⟨next, rest, hnext⟩ := List.exists_cons_of_ne_nil (List.splitOn_ne_nil '\n' cs)
      rw [hnext] at hlines ⊢
      rw [joined]
      cases hchoice : choice 0 with
      | feed =>
        rw [LineBreak.spelling, List.singleton_append, splitOn_sep]
        exact .cons (.inl rfl) hlines
      | pair =>
        rw [LineBreak.spelling, List.cons_append, List.singleton_append,
          splitOn_cons (by decide), splitOn_sep]
        exact .cons (.inr rfl) hlines
      | ret =>
        rw [LineBreak.spelling, List.singleton_append, splitOn_cons (by decide)]
        exact forall₂_modifyHead hlines ['\r']
    · rw [respell, if_neg hc, splitOn_cons hc, splitOn_cons hc, joined_modifyHead]
      exact forall₂_modifyHead (ih choice) [c]

/-- What is said in a respelled text. -/
theorem bareLines_respell (choice : Nat → LineBreak) (text : List Char) :
    bareLines (respell choice text) = bare (joined choice (text.splitOn '\n')) := by
  rw [bareLines_eq, bare_eq (forall₂_joined choice text)]

/-- Where no return is left between two joined lines, nothing is said on one of them. -/
theorem undecorate_join {line next : List Char} (h : '\r' ∉ undecorate (line ++ '\r' :: next)) :
    undecorate line = [] ∧ undecorate (line ++ '\r' :: next) = undecorate next ∨
      undecorate next = [] ∧ undecorate (line ++ '\r' :: next) = undecorate line := by
  by_cases hline : undecorate line = []
  · have hdecoration := undecorate_eq_nil_iff.1 hline
    refine .inl ⟨hline, ?_⟩
    rw [undecorate, List.dropWhile_append_of_pos hdecoration,
      List.dropWhile_cons_of_pos (by decide), undecorate]
  have hstart : (line ++ '\r' :: next).dropWhile (fun c => isBlank c || c == '*') =
      line.dropWhile (fun c => isBlank c || c == '*') ++ '\r' :: next := by
    rw [List.dropWhile_append, if_neg]
    exact fun hnil => hline (by rw [undecorate, List.isEmpty_iff.1 hnil]; rfl)
  by_cases hnext : trimEnd next = []
  · have hblank := trimEnd_eq_nil_iff.1 hnext
    refine .inr ⟨undecorate_eq_nil_iff.2 fun c hc => by rw [hblank c hc]; rfl, ?_⟩
    rw [undecorate, hstart, trimEnd_append (List.forall_mem_cons.2 ⟨by decide, hblank⟩), undecorate]
  · -- something is said on both lines, so that the return between them is kept
    refine absurd ?_ h
    have hrest : trimEnd ('\r' :: next) = '\r' :: trimEnd next :=
      trimEnd_append_of_ne_nil hnext ['\r']
    rw [undecorate, hstart, trimEnd_append_of_ne_nil (hrest ▸ List.cons_ne_nil _ _), hrest]
    exact List.mem_append_right _ List.mem_cons_self

/-- Joined lines on which no return is left say what the lines say. -/
theorem bare_joined {lines : List (List Char)}
    (h : ∀ line ∈ bare (joined choice lines), '\r' ∉ line) :
    bare (joined choice lines) = bare lines := by
  induction lines generalizing choice with
  | nil => rfl
  | cons line lines ih =>
    rcases lines with _ | ⟨next, rest⟩
    · rfl
    have hrest := @ih fun i => choice (i + 1)
    obtain ⟨first, others, hjoined⟩ :
        ∃ first others, joined (fun i => choice (i + 1)) (next :: rest) = first :: others :=
      List.exists_cons_of_ne_nil (joined_ne_nil (List.cons_ne_nil next rest))
    rw [joined] at h ⊢
    rw [hjoined] at h hrest ⊢
    by_cases hchoice : choice 0 = .ret
    · rw [if_pos hchoice, List.modifyHead_cons] at h ⊢
      have hline : '\r' ∉ undecorate (line ++ '\r' :: first) := by
        by_cases hnil : undecorate (line ++ '\r' :: first) = []
        · rw [hnil]
          exact List.not_mem_nil
        · exact h _ (by rw [bare_of_ne_nil hnil]; exact List.mem_cons_self)
      rcases undecorate_join hline with ⟨hnil, hsame⟩ | ⟨hnil, hsame⟩
      · have hbare : bare ((line ++ '\r' :: first) :: others) = bare (first :: others) := by
          rw [bare, bare, List.map_cons, List.map_cons, hsame]
        rw [hbare] at h ⊢
        rw [hrest h, bare_of_nil hnil]
      · have hbare : bare ((line ++ '\r' :: first) :: others) = bare (line :: others) := by
          rw [bare, bare, List.map_cons, List.map_cons, hsame]
        rw [hbare, bare_cons] at h ⊢
        rw [bare_of_nil hnil] at hrest
        rw [hrest fun l hl => h l (List.mem_append_right _ hl), ← bare_cons]
    · rw [if_neg hchoice, bare_cons] at h ⊢
      rw [hrest fun l hl => h l (List.mem_append_right _ hl), ← bare_cons]

/-- A text without returns says nothing with a return. -/
theorem ret_not_mem_bareLines {text line : List Char} (h : '\r' ∉ text)
    (hline : line ∈ bareLines text) : '\r' ∉ line := by
  rw [bareLines_eq] at hline
  obtain ⟨whole, hwhole, rfl⟩ := List.mem_map.1 (List.mem_filter.1 hline).1
  intro hret
  have hmem := (List.dropWhile_suffix _).mem ((trimEnd_isPrefix _).mem hret)
  exact h (mem_of_mem_splitOn hwhole hmem).1

/-- **A comment with respelled line breaks is read as its lines joined at the lone returns.**  They
say the same if and only if no return is left on them, and then the comment is read as before; so
it is where no line break is a lone return. -/
theorem ofComment_respell (choice : Nat → LineBreak) (text : String) (comment : Span)
    (h : '\r' ∉ text.toList) :
    ofComment (String.ofList (respell choice text.toList)) comment =
        ofBareLines (bare (joined choice (text.toList.splitOn '\n'))) comment ∧
      (bare (joined choice (text.toList.splitOn '\n')) = bareLines text.toList ↔
        ∀ line ∈ bare (joined choice (text.toList.splitOn '\n')), '\r' ∉ line) ∧
      ((∀ line ∈ bare (joined choice (text.toList.splitOn '\n')), '\r' ∉ line) →
        ofComment (String.ofList (respell choice text.toList)) comment = ofComment text comment) ∧
      ((∀ i, choice i ≠ .ret) →
        ofComment (String.ofList (respell choice text.toList)) comment =
          ofComment text comment) := by
  have hread : ofComment (String.ofList (respell choice text.toList)) comment =
      ofBareLines (bare (joined choice (text.toList.splitOn '\n'))) comment := by
    rw [ofComment_eq_ofBareLines, String.toList_ofList, bareLines_respell]
  refine ⟨hread, ⟨fun hsame line hline => ?_, fun hret => ?_⟩, fun hret => ?_, fun hchoice => ?_⟩
  · exact ret_not_mem_bareLines h (hsame ▸ hline)
  · rw [bareLines_eq, bare_joined hret]
  · rw [hread, ofComment_eq_ofBareLines, bareLines_eq, bare_joined hret]
  · rw [hread, ofComment_eq_ofBareLines, bareLines_eq, joined_eq_self hchoice]

/-- With a return before each line feed, and a lone return where only decoration follows, a hidden
declaration stays hidden. -/
theorem ofComment_respell_pairs :
    '\r' ∉ "*\n * Adds.\n * @hidden\n ".toList ∧
      ofComment (String.ofList (respell (fun i => if i = 2 then .ret else .pair)
        "*\n * Adds.\n * @hidden\n ".toList)) .zero = .ok ⟨some "Adds.", [], none, true⟩ := by
  refine ⟨by decide, ?_⟩
  have hread := (ofComment_respell (fun i => if i = 2 then .ret else .pair)
    "*\n * Adds.\n * @hidden\n " .zero (by decide)).2.2.1 (by decide)
  exact hread.trans (by decide)

/-- With lone returns a tag is read as text of the summary, and the declaration is not hidden. -/
theorem ofComment_respell_rets :
    ofComment (String.ofList (respell (fun _ => .ret) "*\n * Adds.\n * @hidden\n ".toList)) .zero =
        .ok ⟨some "Adds.\r * @hidden", [], none, false⟩ ∧
      ofComment "*\n * Adds.\n * @hidden\n " .zero = .ok ⟨some "Adds.", [], none, true⟩ := by
  decide

end Doc

end AcsOutline
