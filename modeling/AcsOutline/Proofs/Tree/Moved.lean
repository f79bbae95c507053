import AcsOutline.Proofs.Scanner.Mirror
import AcsOutline.Proofs.Tree.Levels
import Mathlib.Data.List.Forall2

/-!
# Trees of a source and of a part of it

What a part of a source declares stands on other lines than in the source: `Entry.Moved` and
`TaskNote.Moved` say that a line is counted from the start of the part and from the start of the
source.  What comes from other files keeps its lines.  Trees that differ in nothing else
(`Tree.Moved`) stay so in every step of building them (`Builder.Moved`).

An entry does not say which file it comes from, so these relations allow each one to be moved or
not.  They are an invariant of reading, and which entries and notes are moved is told by the steps
that add them (`Builder.Edit.move`, `History.behind`).
-/

namespace AcsOutline

/-- An entry of a part, on its line in the source. -/
def Entry.move (m : Move) (e : Entry) : Entry :=
  { e with line := e.line + m.lines }

/-- A task note of a part, on its line in the source. -/
def TaskNote.move (m : Move) (n : TaskNote) : TaskNote :=
  { n with line := n.line + m.lines }

/-- `e` and `e'` are the same entry, which is moved if it comes from the part. -/
def Entry.Moved (m : Move) (e e' : Entry) : Prop :=
  e = e' ∨ e = e'.move m

/-- `n` and `n'` are the same task note, which is moved if it comes from the part: then it names
the file that the part belongs to. -/
def TaskNote.Moved (file : String) (m : Move) (n n' : TaskNote) : Prop :=
  n = n' ∨ (n'.file = file ∧ n = n'.move m)

/-- Two levels hold the same entries and task notes, some of them moved. -/
structure Tree.LevelMoved (file : String) (m : Move) (t t' : Tree) : Prop where
  notes : List.Forall₂ (TaskNote.Moved file m) t.notes.toList t'.notes.toList
  entries : List.Forall₂ (Entry.Moved m) t.entries.toList t'.entries.toList

/-- Two trees hold the same namespaces, entries and task notes in the same order, some of the
entries and notes moved. -/
def Tree.Moved (file : String) (m : Move) (t t' : Tree) : Prop :=
  t.Levelwise (LevelMoved file m) t'

/-- Two trees under construction are the same but for what is moved. -/
structure Builder.Moved (file : String) (m : Move) (b b' : Builder) : Prop where
  here : b.here.Moved file m b'.here
  above : Tree.LevelwiseIn (Tree.LevelMoved file m) b.above b'.above

variable {file : String} {m : Move}

theorem Entry.Moved.eq_of_over_nil {e e' : Entry} (h : e.Moved (.over []) e') : e = e' :=
  h.elim id id

theorem TaskNote.Moved.eq_of_over_nil {n n' : TaskNote} (h : n.Moved file (.over []) n') :
    n = n' :=
  h.elim id (·.2)

namespace Tree

theorem LevelMoved.refl (t : Tree) : t.LevelMoved file m t where
  notes := List.forall₂_same.2 fun _ _ => Or.inl rfl
  entries := List.forall₂_same.2 fun _ _ => Or.inl rfl

theorem LevelMoved.eq_of_over_nil {t t' : Tree} (h : t.LevelMoved file (.over []) t') :
    t.notes = t'.notes ∧ t.entries = t'.entries where
  left := Array.toList_inj.1 <|
    List.forall₂_eq_eq_eq ▸ h.notes.imp fun _ _ => TaskNote.Moved.eq_of_over_nil
  right := Array.toList_inj.1 <|
    List.forall₂_eq_eq_eq ▸ h.entries.imp fun _ _ => Entry.Moved.eq_of_over_nil

theorem Moved.refl (t : Tree) : t.Moved file m t :=
  Levelwise.refl LevelMoved.refl t

/-- Where nothing is moved, the trees are the same. -/
theorem Moved.eq_of_over_nil {t t' : Tree} (h : t.Moved file (.over []) t') : t = t' :=
  Levelwise.eq LevelMoved.eq_of_over_nil h

theorem Moved.pushEntry {t t' : Tree} (h : t.Moved file m t') {e e' : Entry} (he : e.Moved m e') :
    (t.pushEntry e).Moved file m (t'.pushEntry e') := by
  refine .of_here ⟨h.here.notes, ?_⟩ h.below
  simp only [Tree.pushEntry, Array.toList_push]
  exact List.rel_append h.here.entries (.cons he .nil)

theorem Moved.pushNote {t t' : Tree} (h : t.Moved file m t') {n n' : TaskNote}
    (hn : n.Moved file m n') : (t.pushNote n).Moved file m (t'.pushNote n') := by
  refine .of_here ⟨?_, h.here.entries⟩ h.below
  simp only [Tree.pushNote, Array.toList_push]
  exact List.rel_append h.here.notes (.cons hn .nil)

theorem shallow_levelMoved : Shallow (LevelMoved file m) :=
  fun _ _ h => ⟨h.notes, h.entries⟩

end Tree

namespace Builder

theorem Moved.refl (b : Builder) : b.Moved file m b where
  here := .refl b.here
  above := Tree.LevelwiseIn.refl Tree.LevelMoved.refl b.above

theorem Moved.eq_of_over_nil {b b' : Builder} (h : b.Moved file (.over []) b') : b = b' :=
  congr (congrArg Builder.mk h.here.eq_of_over_nil)
    (Tree.LevelwiseIn.eq Tree.LevelMoved.eq_of_over_nil h.above)

theorem Moved.pushEntry {b b' : Builder} (h : b.Moved file m b') {e e' : Entry}
    (he : e.Moved m e') : (b.pushEntry e).Moved file m (b'.pushEntry e') :=
  ⟨h.here.pushEntry he, h.above⟩

theorem Moved.pushNote {b b' : Builder} (h : b.Moved file m b') {n n' : TaskNote}
    (hn : n.Moved file m n') : (b.pushNote n).Moved file m (b'.pushNote n') :=
  ⟨h.here.pushNote hn, h.above⟩

theorem Moved.levelwise {b b' : Builder} (h : b.Moved file m b') :
    b.Levelwise (Tree.LevelMoved file m) b' :=
  ⟨h.here, h.above⟩

theorem Levelwise.moved {b b' : Builder} (h : b.Levelwise (Tree.LevelMoved file m) b') :
    b.Moved file m b' :=
  ⟨h.here, h.above⟩

theorem Moved.enter {b b' : Builder} (h : b.Moved file m b') (key : NamespaceKey) :
    (b.enter key).Moved file m (b'.enter key) :=
  (h.levelwise.enter (.refl _) key).moved

theorem Moved.enterAll {b b' : Builder} (h : b.Moved file m b') (keys : List NamespaceKey) :
    (keys.foldl Builder.enter b).Moved file m (keys.foldl Builder.enter b') := by
  induction keys generalizing b b' with
  | nil => exact h
  | cons key keys ih => exact ih (h.enter key)

/-- Both builders have a namespace to leave, or neither has one. -/
theorem Moved.leave? {b b' : Builder} (h : b.Moved file m b') :
    Option.Rel (Moved file m) b.leave? b'.leave? := by
  have hleave := h.levelwise.leave? Tree.shallow_levelMoved
  generalize b.leave? = left at hleave ⊢
  generalize b'.leave? = left' at hleave ⊢
  cases hleave with
  | none => exact .none
  | some hleft => exact .some hleft.moved

/-- The same namespaces are open. -/
theorem Moved.path_eq {b b' : Builder} (h : b.Moved file m b') : b.path = b'.path := by
  rw [path, path, h.above.keys_eq]

/-- The finished trees are the same but for what is moved. -/
theorem Moved.finish {b b' : Builder} (h : b.Moved file m b') :
    b.finish.Moved file m b'.finish :=
  h.levelwise.finish Tree.shallow_levelMoved

end Builder

end AcsOutline
