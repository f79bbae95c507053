import AcsOutline.Proofs.Scanner.Reread

/-!
# Lexemes on a line

Lexemes on one line, with the spaces that values are written with, are read as these lexemes:
between two of them stands a space, or one of them is a parenthesis on the side of the other, and
either keeps them apart.  `Scanner.Awaits` is the invariant, that what a scanner has before it is
the line of the lexemes that are left; it is kept by every token (`Scanner.Awaits.next`), and so
a value that begins with the first lexeme is made of all of them (`Scanner.Awaits.value`).
-/

namespace AcsOutline

namespace Lexeme

/-! ## Lines -/

/-- An opening parenthesis. -/
def opening : Lexeme :=
  ⟨.lparen, ['(']⟩

/-- A closing parenthesis. -/
def closing : Lexeme :=
  ⟨.rparen, [')']⟩

/-- What stands after a lexeme on a line, given the lexemes that follow and how they stand on a
line themselves. -/
def gap (l : Lexeme) (ls : List Lexeme) (line : List Char) : List Char :=
  match ls with
  | [] => []
  | k :: _ => if l.spelling = ['('] ∨ k.spelling = [')'] then line else ' ' :: line

/-- Lexemes on one line, with the spaces that values are written with. -/
def line : List Lexeme → List Char
  | [] => []
  | l :: ls => l.spelling ++ gap l ls (line ls)

theorem ofList_eq_open_iff (cs : List Char) : String.ofList cs = "(" ↔ cs = ['('] := by
  show String.ofList cs = String.ofList ['('] ↔ _
  rw [String.ofList_inj]

theorem ofList_eq_close_iff (cs : List Char) : String.ofList cs = ")" ↔ cs = [')'] := by
  show String.ofList cs = String.ofList [')'] ↔ _
  rw [String.ofList_inj]

/-- Lexemes stand on a line as their texts do. -/
theorem toList_join_spaced (ls : List Lexeme) :
    (String.join (Value.spaced (ls.map fun l => String.ofList l.spelling))).toList = line ls := by
  induction ls with
  | nil => rfl
  | cons l ls ih =>
    cases ls with
    | nil => simp [Value.spaced, line, gap, String.join_cons]
    | cons k ls =>
      rw [List.map_cons] at ih
      have hiff : String.ofList l.spelling = "(" ∨ String.ofList k.spelling = ")" ↔
          l.spelling = ['('] ∨ k.spelling = [')'] := by
        rw [ofList_eq_open_iff, ofList_eq_close_iff]
      rw [List.map_cons, List.map_cons, Value.spaced, line, gap]
      by_cases hgap : l.spelling = ['('] ∨ k.spelling = [')']
      · rw [if_pos (hiff.2 hgap), if_pos hgap, String.join_cons, String.toList_append,
          String.toList_ofList, ih]
      · rw [if_neg fun h => hgap (hiff.1 h), if_neg hgap, String.join_cons, String.join_cons,
          String.toList_append, String.toList_append, String.toList_ofList, ih]
        rfl

/-- A line goes on with a delimiter after every lexeme but an opening parenthesis. -/
theorem delimited_gap {l : Lexeme} (h : l.spelling ≠ ['(']) (ls : List Lexeme) :
    Delimited (gap l ls (line ls)) := by
  cases ls with
  | nil => exact delimited_nil
  | cons k ls =>
    rw [gap]
    split
    next hgap =>
      rw [line, hgap.resolve_left h]
      exact delimited_close _
    · exact delimited_space _

/-! ## Lexemes of values -/

/-- After an opening parenthesis comes what follows it, whatever that is. -/
theorem read_opening (r : List Char) :
    Trivia.read? .all ('(' :: r) = none ∧ read ('(' :: r) = (opening, r) := by
  constructor
  · exact Trivia.read?_eq_none (by decide) fun h => absurd h (by decide)
  · rw [read_cons (by decide), extent_of_lookup (by decide : _ = some TokenKind.lparen)]
    rfl

theorem legible_closing : Legible closing :=
  legible_of_extent (by decide) (by decide) (fun h => absurd h (by decide))
    fun r _ => extent_of_lookup (by decide : _ = some TokenKind.rparen) r

/-- A lexeme of a value: a parenthesis, or a lexeme that can be read again and does not end the
value. -/
inductive InValue (l : Lexeme) : Prop
  | opening (h : l = opening)
  | closing (h : l = closing)
  | leaf (hlegible : l.Legible) (hends : Value.endsValue l.kind = false)
      (hopen : l.kind ≠ .lparen) (hclose : l.kind ≠ .rparen)

namespace InValue

variable {l : Lexeme}

theorem goes_on (h : l.InValue) : Value.endsValue l.kind = false := by
  cases h with
  | opening h => rw [h]; rfl
  | closing h => rw [h]; rfl
  | leaf _ hends => exact hends

theorem cases_legible (h : l.InValue) : l = Lexeme.opening ∨ l.Legible ∧ l.kind ≠ .lparen := by
  cases h with
  | opening h => exact Or.inl h
  | closing h =>
    rw [h]
    exact Or.inr ⟨legible_closing, by decide⟩
  | leaf hlegible _ hopen _ => exact Or.inr ⟨hlegible, hopen⟩

/-- **A lexeme is read from the line that it begins**, and what follows it is left. -/
theorem read_line (h : l.InValue) (ls : List Lexeme) :
    Trivia.read? .all (line (l :: ls)) = none ∧
      read (line (l :: ls)) = (l, gap l ls (line ls)) := by
  rcases h.cases_legible with rfl | ⟨hlegible, hopen⟩
  · exact read_opening _
  · -- what is spelled as an opening parenthesis would be read as one
    have hspelling : l.spelling ≠ ['('] := by
      intro hl
      have hread := hlegible.read_eq [] delimited_nil
      rw [hl, List.append_nil, (read_opening []).2] at hread
      exact hopen (congrArg (·.1.kind) hread).symm
    have hgap := delimited_gap hspelling ls
    exact ⟨hlegible.no_trivia _ hgap, hlegible.read_eq _ hgap⟩

end InValue

end Lexeme

/-- What lexemes do to the open groups, one after the other. -/
def Value.Nest.takeLexemes (n : Nest) (ls : List Lexeme) : Nest :=
  ls.foldl (fun n l => n.take l.kind l.text) n

namespace Scanner

/-! ## A scanner before a line -/

/-- A scanner that skips all trivia has these lexemes on a line before it, perhaps after a
space. -/
structure Awaits (s : Scanner) (ls : List Lexeme) : Prop where
  mask_eq : s.mask = .all
  rest_eq : s.rest = Lexeme.line ls ∨ s.rest = ' ' :: Lexeme.line ls

theorem awaits_ofString {text : String} {ls : List Lexeme} (h : text.toList = Lexeme.line ls) :
    (Scanner.ofString text).Awaits ls :=
  ⟨rfl, Or.inl h⟩

namespace Awaits

variable {s : Scanner} {l : Lexeme} {ls : List Lexeme}

theorem read?_line (hls : ∀ l ∈ ls, l.InValue) : Trivia.read? .all (Lexeme.line ls) = none := by
  cases ls with
  | nil => rfl
  | cons l ls => exact ((hls l (by simp)).read_line ls).1

/-- A space before the line is skipped. -/
theorem rest_skipTrivia (h : s.Awaits ls) (hls : ∀ l ∈ ls, l.InValue) :
    s.skipTrivia.rest = Lexeme.line ls := by
  have hnone := read?_line hls
  rcases h.rest_eq with hrest | hrest
  · rw [← h.mask_eq, ← hrest] at hnone
    rw [skipTrivia_of_none hnone, hrest]
  · have hspace : Trivia.read? s.mask s.rest = some (.whitespace, [' '], Lexeme.line ls) := by
      rw [h.mask_eq, hrest]
      rfl
    rw [← h.mask_eq] at hnone
    rw [skipTrivia_of_some hspace, skipTrivia_of_none hnone]
    rfl

/-- **One lexeme is read**, and the scanner awaits the others. -/
theorem next (h : s.Awaits (l :: ls)) (hls : ∀ k ∈ l :: ls, k.InValue) :
    s.next.token.kind = l.kind ∧ s.next.token.text = l.text ∧ s.next.Awaits ls := by
  have hrest := h.rest_skipTrivia hls
  have hread := ((hls l (by simp)).read_line ls).2
  rw [← hrest] at hread
  refine ⟨congrArg (·.1.kind) hread, congrArg (·.1.text) hread, ?_, ?_⟩
  · rw [mask_next, h.mask_eq]
  · rw [show s.next.rest = Lexeme.gap l ls (Lexeme.line ls) from congrArg (·.2) hread]
    cases ls with
    | nil => exact Or.inl rfl
    | cons k ls =>
      rw [Lexeme.gap]
      split
      · exact Or.inl rfl
      · exact Or.inr rfl

/-- After the last lexeme comes the end of input. -/
theorem kind_next_nil (h : s.Awaits []) : s.next.token.kind = .eof := by
  have hrest := h.rest_skipTrivia (by simp)
  show (Lexeme.read s.skipTrivia.rest).1.kind = .eof
  rw [hrest]
  rfl

/-- **A value that begins with the lexemes on the line ends after them**, at the end of input,
and what it is made of are these lexemes. -/
theorem value (h : s.Awaits ls) (hls : ∀ l ∈ ls, l.InValue) :
    s.next.ValueEnds ls.length ∧ (s.next.ahead ls.length).token.kind = .eof ∧
      ∀ n : Value.Nest, n.takeAll (s.next.run ls.length) = n.takeLexemes ls := by
  induction ls generalizing s with
  | nil =>
    have heof := h.kind_next_nil
    refine ⟨⟨?_, fun i hi => absurd hi (Nat.not_lt_zero i)⟩, heof, fun n => rfl⟩
    show Value.endsValue s.next.token.kind = true
    rw [heof]
    rfl
  | cons l ls ih =>
    obtain ⟨hkind, htext, hnext⟩ := h.next hls
    obtain ⟨hends, heof, htake⟩ := ih hnext fun k hk => hls k (by simp [hk])
    have hgoes : Value.endsValue s.next.token.kind = false := by
      rw [hkind]
      exact (hls l (by simp)).goes_on
    refine ⟨hends.cons hgoes, heof, fun n => ?_⟩
    show (n.take s.next.token.kind s.next.token.text).takeAll (s.next.next.run ls.length) = _
    rw [htake, hkind, htext]
    rfl

/-- A parenthesis that is opened before the end of input is the last lexeme on the line. -/
theorem last_of_opensBeforeEnd (h : s.Awaits ls) (hls : ∀ l ∈ ls, l.InValue)
    (hopen : s.next.OpensBeforeEnd ls.length) :
    ∃ before o, ls = before ++ [o] ∧ o.kind = .lparen := by
  induction ls generalizing s with
  | nil => exact absurd hopen.1 (Nat.lt_irrefl 0)
  | cons l ls ih =>
    obtain ⟨hkind, -, hnext⟩ := h.next hls
    -- the last lexeme is `l`, or it is the last of those that are left
    rcases Nat.eq_zero_or_pos ls.length with hzero | hpos
    · obtain rfl := List.length_eq_zero_iff.1 hzero
      refine ⟨[], l, rfl, ?_⟩
      rw [← hkind]
      exact hopen.2.1
    · obtain ⟨before, o, hls', ho⟩ :=
        ih hnext (fun k hk => hls k (by simp [hk])) ((opensBeforeEnd_succ hpos).1 hopen)
      exact ⟨l :: before, o, congrArg (l :: ·) hls', ho⟩

end Awaits

end Scanner

end AcsOutline
