import AcsOutline.Proofs.Grammar.LikeForms
import AcsOutline.Proofs.Tree.Levels

/-!
# Trees that declare the same

Two trees declare the same if they have the same namespaces, and at each level the same declarations
with the same documentation, in the same order.  They may differ in lines, in task notes, and in the
text of array initialisers.
-/

namespace AcsOutline

/-- One declaration with one documentation, perhaps on different lines. -/
structure Entry.Alike (e e' : Entry) : Prop where
  declaration : e.declaration.unwritten = e'.declaration.unwritten
  doc_eq : e.doc = e'.doc

/-- Two levels with the same declarations. -/
def Tree.LevelAlike (t t' : Tree) : Prop :=
  List.Forall₂ Entry.Alike t.entries.toList t'.entries.toList

/-- Two trees that declare the same. -/
def Tree.Alike (t t' : Tree) : Prop :=
  t.Levelwise LevelAlike t'

/-- Two trees under construction that declare the same so far. -/
abbrev Builder.Alike (b b' : Builder) : Prop :=
  b.Levelwise Tree.LevelAlike b'

theorem Tree.shallow_levelAlike : Shallow LevelAlike :=
  fun _ _ h => h

namespace Builder

variable {b b' : Builder}

theorem alike_empty : Builder.empty.Alike .empty :=
  ⟨⟨.nil, trivial⟩, trivial⟩

theorem steady_alike : Steady Alike where
  enter key h := h.enter .nil key
  leave h := h.leave? Tree.shallow_levelAlike

theorem Alike.pushEntry (h : b.Alike b') {e e' : Entry} (he : e.Alike e') :
    (b.pushEntry e).Alike (b'.pushEntry e') := by
  refine ⟨.of_here ?_ h.here.below, h.above⟩
  show List.Forall₂ _ (b.here.entries.push e).toList (b'.here.entries.push e').toList
  rw [Array.toList_push, Array.toList_push]
  exact List.rel_append h.here.here (.cons he .nil)

/-- A task note is no declaration. -/
theorem Alike.pushNote_left (h : b.Alike b') (n : TaskNote) : (b.pushNote n).Alike b' :=
  ⟨.of_here h.here.here h.here.below, h.above⟩

theorem Alike.pushNote_right (h : b.Alike b') (n : TaskNote) : b.Alike (b'.pushNote n) :=
  ⟨.of_here h.here.here h.here.below, h.above⟩

/-- Nor are several of them. -/
theorem Alike.notes (h : b.Alike b') (ns ns' : List TaskNote) :
    (b.after (ns.map .note)).Alike (b'.after (ns'.map .note)) := by
  have hleft : (b.after (ns.map .note)).Alike b' := by
    induction ns generalizing b with
    | nil => exact h
    | cons n ns ih => exact ih (h.pushNote_left n)
  induction ns' generalizing b' with
  | nil => exact hleft
  | cons n ns' ih => exact ih (h.pushNote_right n) (hleft.pushNote_right n)

theorem Alike.finish (h : b.Alike b') : b.finish.Alike b'.finish :=
  Levelwise.finish Tree.shallow_levelAlike h

end Builder

end AcsOutline
