import AcsOutline.Value.Casts
import Mathlib.Data.List.Infix

/-!
# What is left out with casts

A value is told by its marks from left to right: leaves, and where groups open and close
(`Value.marks_injective`).  Told so, to leave out casts is to erase the marks of every group around
a single leaf that is spelled like a cast type, in one pass over the value as it was; all other
marks are kept in order (`Value.marks_stripCasts`).

The kind of that leaf is not looked at.  So more than casts is left out exactly where something else
than a word is spelled like a cast type and stands alone in a group: the string of `("int")` is.
-/

namespace AcsOutline

/-- What a value shows from left to right. -/
inductive Mark where
  | opening
  | leaf (kind : TokenKind) (text : String)
  | closing
deriving DecidableEq

namespace Mark

/-- The marks of a group around a single leaf. -/
def around (kind : TokenKind) (text : String) : List Mark :=
  [opening, leaf kind text, closing]

/-- The text of a string, where the mark is one. -/
def string? : Mark → Option String
  | leaf .string text => some text
  | _ => none

/-- Marks without those of the groups around a single leaf that `p` holds of. -/
def erase (p : TokenKind → String → Bool) : List Mark → List Mark
  | opening :: leaf kind text :: closing :: ms =>
    if p kind text then erase p ms else around kind text ++ erase p ms
  | m :: ms => m :: erase p ms
  | [] => []

variable {p q : TokenKind → String → Bool} {ms : List Mark}

/-- Where nothing is erased all marks are left. -/
theorem erase_false (ms : List Mark) : erase (fun _ _ => false) ms = ms := by
  fun_induction erase (fun _ _ => false) ms with
  | case1 kind text ms h => cases h
  | case2 kind text ms h ih => rw [ih]; rfl
  | case3 m ms _ ih => rw [ih]
  | case4 => rfl

/-- An opening mark is left where no such group begins with it. -/
theorem erase_opening (h : ∀ kind text ms', ms = leaf kind text :: closing :: ms' →
    p kind text = false) : erase p (opening :: ms) = opening :: erase p ms := by
  by_cases hone : ∃ kind text ms', ms = leaf kind text :: closing :: ms'
  · obtain ⟨kind, text, ms', rfl⟩ := hone
    simp only [erase, h kind text ms' rfl, Bool.false_eq_true, if_false]
    rfl
  · rw [erase]
    exact fun kind text ms' _ hms => hone ⟨kind, text, ms', hms⟩

/-- To erase more leaves less. -/
theorem erase_sublist (h : ∀ kind text, q kind text = true → p kind text = true)
    (ms : List Mark) : (erase p ms).Sublist (erase q ms) := by
  fun_induction erase q ms with
  | case1 kind text ms hq ih =>
    rw [erase, if_pos (h _ _ hq)]
    exact ih
  | case2 kind text ms hq ih =>
    rw [erase]
    split
    · exact ih.trans (List.sublist_append_right _ _)
    · exact (List.Sublist.refl _).append ih
  | case3 m ms hne ih =>
    rw [erase.eq_2 p m ms hne]
    exact ih.cons_cons m
  | case4 => exact List.Sublist.refl []

/-- A group around a single leaf shows a string where the leaf is one. -/
theorem filterMap_string?_around {kind : TokenKind} {text : String} :
    (around kind text).filterMap string? = [] ↔ kind ≠ .string := by
  cases kind <;> simp [around, string?]

/-- Groups around a single leaf do not overlap: where one comes first, all others come later. -/
theorem forall_around_iff {kind : TokenKind} {text : String} {P : TokenKind → String → Prop} :
    (∀ kind' text', around kind' text' <:+: opening :: leaf kind text :: closing :: ms →
      P kind' text') ↔ P kind text ∧ ∀ kind' text', around kind' text' <:+: ms → P kind' text' := by
  have hin : ∀ kind' text', around kind' text' <:+: opening :: leaf kind text :: closing :: ms ↔
      (kind' = kind ∧ text' = text) ∨ around kind' text' <:+: ms := by
    simp [around, List.infix_cons_iff, List.cons_prefix_cons]
  constructor
  · intro h
    exact ⟨h _ _ ((hin _ _).2 (Or.inl ⟨rfl, rfl⟩)),
      fun _ _ hms => h _ _ ((hin _ _).2 (Or.inr hms))⟩
  · rintro ⟨hfirst, hlater⟩ kind' text' h
    rcases (hin _ _).1 h with ⟨rfl, rfl⟩ | hms
    · exact hfirst
    · exact hlater _ _ hms

theorem around_infix_cons_iff {m : Mark} {kind : TokenKind} {text : String}
    (h : ∀ kind text ms', m = opening → ms = leaf kind text :: closing :: ms' → False) :
    around kind text <:+: m :: ms ↔ around kind text <:+: ms := by
  rw [List.infix_cons_iff, or_iff_right]
  rintro ⟨ms', hms⟩
  obtain ⟨hm, hms⟩ := List.cons.inj hms
  exact h kind text ms' hm.symm hms.symm

/-- **What two choices of groups leave is the same**, in the sense of `f`, exactly where no group
that is erased by the first alone shows anything. -/
theorem filterMap_erase_eq_iff {β : Type} (f : Mark → Option β)
    (h : ∀ kind text, q kind text = true → p kind text = true) (ms : List Mark) :
    (erase p ms).filterMap f = (erase q ms).filterMap f ↔
      ∀ kind text, around kind text <:+: ms → p kind text = true → q kind text = false →
        (around kind text).filterMap f = [] := by
  fun_induction erase q ms with
  | case1 kind text ms hq ih =>
    -- both erase the first group
    rw [erase, if_pos (h _ _ hq), ih]
    refine Iff.trans ?_ forall_around_iff.symm
    exact (and_iff_right fun _ hnot => absurd hq (by rw [hnot]; decide)).symm
  | case2 kind text ms hq ih =>
    refine Iff.trans ?_ forall_around_iff.symm
    rw [← ih, erase, List.filterMap_append]
    by_cases hp : p kind text = true
    · rw [if_pos hp]
      constructor
      · -- what is left of the rest cannot be longer than what the second choice leaves of it
        intro heq
        have hle := ((erase_sublist h ms).filterMap f).length_le
        have hlength := congrArg List.length heq
        rw [List.length_append] at hlength
        have hnil : (around kind text).filterMap f = [] :=
          List.eq_nil_of_length_eq_zero (by omega)
        rw [hnil, List.nil_append] at heq
        exact ⟨fun _ _ => hnil, heq⟩
      · rintro ⟨hnil, heq⟩
        rw [hnil hp (Bool.eq_false_iff.2 hq), List.nil_append, heq]
    · rw [if_neg hp, List.filterMap_append, List.append_cancel_left_eq]
      exact (and_iff_right fun hp' => absurd hp' hp).symm
  | case3 m ms hne ih =>
    rw [erase.eq_2 p m ms hne]
    simp only [around_infix_cons_iff hne, List.filterMap_cons]
    cases f m with
    | none => exact ih
    | some b => simp only [List.cons.injEq, true_and]; exact ih
  | case4 => simp [around, erase]

end Mark

namespace Piece

mutual

/-- The marks of a piece. -/
def marks : Piece → List Mark
  | leaf kind text => [.leaf kind text]
  | group ps => .opening :: (marksAll ps ++ [.closing])

/-- The marks of a list of pieces. -/
def marksAll : List Piece → List Mark
  | [] => []
  | p :: ps => marks p ++ marksAll ps

end

/-! ## Marks tell pieces -/

/-- No piece begins where a group ends, or where nothing is left. -/
theorem ne_marks_append {ms : List Mark} (hms : ∀ m ∈ ms.head?, m = .closing) (p : Piece)
    (ms' : List Mark) : ms ≠ p.marks ++ ms' := by
  rintro rfl
  cases p with
  | leaf kind text => exact nomatch hms (.leaf kind text) rfl
  | group ps => exact nomatch hms .opening rfl

mutual

theorem marks_append_inj (p q : Piece) {ms ms' : List Mark} (h : p.marks ++ ms = q.marks ++ ms') :
    p = q ∧ ms = ms' := by
  match p, q with
  | leaf kind text, leaf kind' text' => simpa [marks, and_assoc] using h
  | leaf kind text, group qs => simp [marks] at h
  | group ps, leaf kind text => simp [marks] at h
  | group ps, group qs =>
    simp only [marks, List.cons_append, List.append_assoc, List.nil_append, List.cons.injEq,
      true_and] at h
    obtain ⟨rfl, hms⟩ := marksAll_append_inj ps qs (by simp) (by simp) h
    exact ⟨rfl, (List.cons.inj hms).2⟩

/-- Pieces are told by their marks, where a group ends behind them or nothing follows. -/
theorem marksAll_append_inj (ps qs : List Piece) {ms ms' : List Mark}
    (hms : ∀ m ∈ ms.head?, m = .closing) (hms' : ∀ m ∈ ms'.head?, m = .closing)
    (h : marksAll ps ++ ms = marksAll qs ++ ms') : ps = qs ∧ ms = ms' := by
  match ps, qs with
  | [], [] => exact ⟨rfl, h⟩
  | [], q :: qs =>
    rw [marksAll, marksAll, List.nil_append, List.append_assoc] at h
    exact absurd h (ne_marks_append hms q _)
  | p :: ps, [] =>
    rw [marksAll, marksAll, List.nil_append, List.append_assoc] at h
    exact absurd h.symm (ne_marks_append hms' p _)
  | p :: ps, q :: qs =>
    rw [marksAll, marksAll, List.append_assoc, List.append_assoc] at h
    obtain ⟨rfl, htail⟩ := marks_append_inj p q h
    obtain ⟨rfl, hrest⟩ := marksAll_append_inj ps qs hms hms' htail
    exact ⟨rfl, hrest⟩

end

/-- A group around a single leaf is told by the marks behind the first one. -/
theorem eq_leaf_of_marksAll {ps : List Piece} {kind : TokenKind} {text : String}
    {ms ms' : List Mark} (h : marksAll ps ++ .closing :: ms = .leaf kind text :: .closing :: ms') :
    ps = [leaf kind text] := by
  have hleaf : marksAll [leaf kind text] ++ .closing :: ms' = .leaf kind text :: .closing :: ms' :=
    rfl
  exact (marksAll_append_inj ps _ (by simp) (by simp) (h.trans hleaf.symm)).1

end Piece

/-- Whether a token is spelled like a cast type, of whatever kind it is. -/
def Dialect.looksLikeCast (d : Dialect) (_kind : TokenKind) (text : String) : Bool :=
  d.isCastType text

/-- Whether a token names a cast type: it is a word that is spelled like one. -/
def Dialect.namesCast (d : Dialect) (kind : TokenKind) (text : String) : Bool :=
  kind.isWord && d.isCastType text

namespace Piece

/-! ## Leaving out casts -/

theorem marksAll_append (ps qs : List Piece) :
    marksAll (ps ++ qs) = marksAll ps ++ marksAll qs := by
  induction ps with
  | nil => rfl
  | cons p ps ih => rw [List.cons_append, marksAll, marksAll, ih, List.append_assoc]

/-- A cast is a single leaf that is spelled like a cast type. -/
theorem isCast_eq_true {d : Dialect} {ps : List Piece} (h : isCast d ps = true) :
    ∃ kind text, ps = [leaf kind text] ∧ d.looksLikeCast kind text = true := by
  unfold isCast at h
  split at h
  next kind text => exact ⟨kind, text, rfl, h⟩
  · cases h

mutual

/-- What follows a piece does not change what is erased in it. -/
theorem erase_marks_append (d : Dialect) (p : Piece) (ms : List Mark) :
    Mark.erase d.looksLikeCast (p.marks ++ ms) =
      marksAll (p.stripCasts d) ++ Mark.erase d.looksLikeCast ms := by
  match p with
  | leaf kind text => simp [marks, stripCasts, marksAll, Mark.erase]
  | group ps =>
    rw [marks, stripCasts, List.cons_append, List.append_assoc, List.singleton_append]
    by_cases hcast : isCast d ps = true
    · obtain ⟨kind, text, rfl, hlooks⟩ := isCast_eq_true hcast
      rw [if_pos hcast]
      show Mark.erase _ (.opening :: .leaf kind text :: .closing :: ms) = _
      rw [Mark.erase, if_pos hlooks]
      rfl
    · have hnot : ∀ kind text ms',
          marksAll ps ++ .closing :: ms = .leaf kind text :: .closing :: ms' →
            d.looksLikeCast kind text = false := by
        intro kind text ms' hms
        obtain rfl := eq_leaf_of_marksAll hms
        exact Bool.eq_false_iff.2 hcast
      rw [if_neg hcast, Mark.erase_opening hnot, erase_marksAll_append d ps, Mark.erase.eq_2]
      · simp only [marksAll, marks, List.append_nil, List.cons_append, List.append_assoc,
          List.nil_append]
      · exact fun _ _ _ h _ => nomatch h

theorem erase_marksAll_append (d : Dialect) (ps : List Piece) (ms : List Mark) :
    Mark.erase d.looksLikeCast (marksAll ps ++ ms) =
      marksAll (stripCastsAll d ps) ++ Mark.erase d.looksLikeCast ms := by
  match ps with
  | [] => rfl
  | p :: ps =>
    rw [marksAll, List.append_assoc, erase_marks_append d p, erase_marksAll_append d ps,
      stripCastsAll, marksAll_append, List.append_assoc]

end

end Piece

namespace Value

/-- The marks of a value. -/
def marks (v : Value) : List Mark :=
  Piece.marksAll v.pieces

/-- The texts of the strings in a value, in order. -/
def strings (v : Value) : List String :=
  v.marks.filterMap Mark.string?

/-- A value is told by its marks. -/
theorem marks_injective {v w : Value} (h : v.marks = w.marks) : v = w := by
  obtain ⟨ps⟩ := v
  obtain ⟨qs⟩ := w
  have happend : Piece.marksAll ps ++ [] = Piece.marksAll qs ++ [] := by
    rw [List.append_nil, List.append_nil]
    exact h
  rw [(Piece.marksAll_append_inj ps qs (by simp) (by simp) happend).1]

/-- To leave out casts is to erase the groups around a single leaf that is spelled like one. -/
theorem marks_stripCasts (d : Dialect) (v : Value) :
    (v.stripCasts d).marks = Mark.erase d.looksLikeCast v.marks := by
  have herase := Piece.erase_marksAll_append d v.pieces []
  rw [List.append_nil, Mark.erase, List.append_nil] at herase
  exact herase.symm

/-- Nothing but casts is left out where only words are spelled like cast types, alone in a group. -/
theorem marks_stripCasts_eq_iff (d : Dialect) (v : Value) :
    (v.stripCasts d).marks = Mark.erase d.namesCast v.marks ↔
      ∀ kind text, Mark.around kind text <:+: v.marks → d.isCastType text = true →
        kind.isWord = true := by
  have hwords : ∀ kind text, d.namesCast kind text = true → d.looksLikeCast kind text = true :=
    fun _ _ h => (Bool.and_eq_true_iff.1 h).2
  have hsame := Mark.filterMap_erase_eq_iff some hwords v.marks
  rw [List.filterMap_some, List.filterMap_some] at hsame
  rw [marks_stripCasts, hsame]
  refine forall₂_congr fun kind text => forall₂_congr fun _ hcast => ?_
  -- every mark shows something, so that all of these groups have to be casts
  have hcast : d.isCastType text = true := hcast
  rw [Dialect.namesCast, hcast, Bool.and_true]
  cases kind.isWord <;> simp [Mark.around]

/-- All strings are kept where none is spelled like a cast type, alone in a group. -/
theorem strings_stripCasts_eq_iff (d : Dialect) (v : Value) :
    (v.stripCasts d).strings = v.strings ↔
      ∀ text, Mark.around .string text <:+: v.marks → d.isCastType text = false := by
  have hsame := Mark.filterMap_erase_eq_iff Mark.string?
    (p := d.looksLikeCast) (q := fun _ _ => false) (fun _ _ h => nomatch h) v.marks
  rw [Mark.erase_false] at hsame
  simp only [Mark.filterMap_string?_around, true_implies] at hsame
  rw [strings, strings, marks_stripCasts, hsame]
  constructor
  · intro h text hin
    by_contra hcast
    rw [Bool.not_eq_false] at hcast
    exact h .string text hin hcast rfl
  · rintro h kind text hin hcast rfl
    exact absurd hcast (Bool.eq_false_iff.1 (h text hin))

/-- **To leave out casts keeps all but groups around a single leaf that is spelled like a cast
type**, in order and nesting.  Nothing but casts is left out exactly where each such leaf is a word;
and all strings are kept, in order, exactly where none of these leaves is a string. -/
theorem stripCasts_erases (d : Dialect) (v : Value) :
    (∀ w : Value, v.stripCasts d = w ↔ w.marks = Mark.erase d.looksLikeCast v.marks) ∧
    ((v.stripCasts d).marks = Mark.erase d.namesCast v.marks ↔
      ∀ kind text, Mark.around kind text <:+: v.marks → d.isCastType text = true →
        kind.isWord = true) ∧
    ((v.stripCasts d).strings = v.strings ↔
      ∀ text, Mark.around .string text <:+: v.marks → d.isCastType text = false) := by
  refine ⟨fun w => ?_, v.marks_stripCasts_eq_iff d, v.strings_stripCasts_eq_iff d⟩
  rw [← v.marks_stripCasts d]
  constructor
  · rintro rfl
    rfl
  · exact fun h => (marks_injective h).symm

/-- A string that is spelled like a cast type is left out, alone in a group as a cast would be. -/
theorem stripCasts_string :
    let v : Value := ⟨[.group [.leaf .string "int"]]⟩
    (v.stripCasts .standard).marks ≠ Mark.erase Dialect.standard.namesCast v.marks ∧
      v.strings = ["int"] ∧ (v.stripCasts .standard).strings = [] := by
  decide

end Value

end AcsOutline
