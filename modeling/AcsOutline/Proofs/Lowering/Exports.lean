import AcsOutline.Lowering
import AcsOutline.Proofs.Tree.Levels
import Mathlib.Data.List.Forall2

/-!
# What lowering keeps

A level of a tree exports the names that its visible declarations declare, each with its sort.
Lowering keeps them, in order, at every level, and it keeps the namespaces and the notes
(`Tree.lower_keeps`).  Each declaration becomes a run of declarations of its own, which export
what it exports and stand on its line (`Entry.Becomes`); the documentation of an enum goes to the
first of its members.
-/

namespace AcsOutline

/-! ## Exports -/

/-- The sorts of names that are exported. -/
inductive ExportSort where
  | library
  | importFile
  | define
  | libDefine
  | world
  | global
  | script
  | function
  | scalar
  | array
deriving DecidableEq, Inhabited

/-- A name that is exported. -/
structure Export where
  sort : ExportSort
  name : String
deriving DecidableEq, Inhabited

/-- What a variable exports; nothing where it is initialised like a struct. -/
def Variable.exported? : Variable → Option Export
  | scalar name _ => some ⟨.scalar, name⟩
  | array name _ _ => some ⟨.array, name⟩
  | record _ _ => none

/-- What a declaration exports, its privacy aside.  The members of an enum count as defines. -/
def Declaration.exports : Declaration → List Export
  | includeFile _ | struct _ | typedef _ => []
  | library name => [⟨.library, name⟩]
  | importFile path => [⟨.importFile, path⟩]
  | define d => [⟨.define, d.key⟩]
  | libDefine d => [⟨.libDefine, d.key⟩]
  | worldVariable v => [⟨.world, v.name⟩]
  | globalVariable v => [⟨.global, v.name⟩]
  | enum e => e.members.map fun m => ⟨.define, m.name⟩
  | variableGroup v => v.items.filterMap Variable.exported?
  | script s => [⟨.script, s.identifier⟩]
  | function f => [⟨.function, f.name⟩]

/-- What a declaration with its documentation exports: nothing where it is hidden or private. -/
def Entry.exports (e : Entry) : List Export :=
  if e.isHidden || e.declaration.isPrivate then [] else e.declaration.exports

/-- What a level exports, in order. -/
def Tree.exports (t : Tree) : List Export :=
  t.entries.toList.flatMap Entry.exports

/-! ## One declaration -/

theorem Variable.exported?_of_lower? (d : Dialect) (v : Variable) :
    (v.lower? d).bind Variable.exported? = v.exported? := by
  cases v <;> rfl

/-- The variables that are left of a declaration export what all of them do. -/
theorem VariablesDecl.exports_lower? (d : Dialect) (v : VariablesDecl) :
    ((v.lower? d).toList.map Declaration.variableGroup).flatMap Declaration.exports =
      v.items.filterMap Variable.exported? := by
  have hitems : (v.items.filterMap (Variable.lower? d)).filterMap Variable.exported? =
      v.items.filterMap Variable.exported? := by
    rw [List.filterMap_filterMap]
    exact congrArg (List.filterMap · v.items) (funext (Variable.exported?_of_lower? d))
  unfold lower?
  dsimp only
  split
  next hempty =>
    rw [List.isEmpty_iff.1 hempty] at hitems
    exact hitems
  · rw [← hitems]
    simp [Declaration.exports]

namespace Declaration

/-- **A declaration exports what it becomes exports.** -/
theorem exports_lower (d : Dialect) (x : Declaration) :
    (x.lower d).flatMap exports = x.exports := by
  cases x with
  | enum e =>
    show (e.members.map fun m => define (m.toDefine d)).flatMap exports = _
    rw [List.flatMap_map]
    exact List.map_eq_flatMap.symm
  | variableGroup v => exact v.exports_lower? d
  | _ => rfl

/-- Variables become those that are left of them, if any is. -/
theorem of_mem_lower_variableGroup {d : Dialect} {v : VariablesDecl} {y : Declaration}
    (hy : y ∈ (variableGroup v).lower d) :
    (v.items.filterMap (Variable.lower? d)).isEmpty = false ∧
      y = variableGroup { v with
        type := d.coerce v.type, items := v.items.filterMap (Variable.lower? d) } := by
  obtain ⟨w, hw, rfl⟩ := List.mem_map.1 hy
  have hw : v.lower? d = some w := by simpa using hw
  unfold VariablesDecl.lower? at hw
  dsimp only at hw
  split at hw
  · cases hw
  next hsome =>
    cases hw
    exact ⟨Bool.eq_false_iff.2 hsome, rfl⟩

/-- What a public declaration becomes is public. -/
theorem isPrivate_of_mem_lower {d : Dialect} {x y : Declaration} (hx : x.isPrivate = false)
    (hy : y ∈ x.lower d) : y.isPrivate = false := by
  cases x with
  | enum e =>
    obtain ⟨m, -, rfl⟩ := List.mem_map.1 hy
    rfl
  | variableGroup v =>
    obtain ⟨-, rfl⟩ := of_mem_lower_variableGroup hy
    exact hx
  | function f =>
    obtain rfl := List.mem_singleton.1 hy
    exact hx
  | includeFile | struct | typedef => cases hy
  | _ =>
    obtain rfl := List.mem_singleton.1 hy
    rfl

/-- Only an enum becomes more than one declaration. -/
theorem length_lower_le {d : Dialect} {x : Declaration} (hx : ∀ e, x ≠ enum e) :
    (x.lower d).length ≤ 1 := by
  cases x with
  | enum e => exact absurd rfl (hx e)
  | variableGroup v =>
    show ((v.lower? d).toList.map variableGroup).length ≤ 1
    cases v.lower? d <;> simp
  | _ => simp [lower]

end Declaration

namespace Entry

/-- The run of declarations that a declaration becomes: they export what it exports and stand on
its line.  An enum gives its documentation to the first of them; any other declaration becomes at
most one, which has its documentation. -/
structure Becomes (e : Entry) (run : List Entry) : Prop where
  exports_eq : run.flatMap exports = e.exports
  line_eq : ∀ x ∈ run, x.line = e.line
  doc_head : ∀ x ∈ run.head?, x.doc = e.doc
  doc_tail : ∀ x ∈ run.tail, x.doc = none
  length_le : (∀ x, e.declaration ≠ .enum x) → run.length ≤ 1

section DocumentFirst

variable {line : Nat} {doc : Option Doc} {xs : List Declaration} {e : Entry}

theorem map_declaration_documentFirst :
    (documentFirst line doc xs).map declaration = xs := by
  cases xs with
  | nil => rfl
  | cons x xs => simp [documentFirst, Function.comp_def]

theorem line_of_mem_documentFirst (he : e ∈ documentFirst line doc xs) : e.line = line := by
  cases xs with
  | nil => cases he
  | cons x xs =>
    rcases List.mem_cons.1 he with rfl | he
    · rfl
    · obtain ⟨y, -, rfl⟩ := List.mem_map.1 he
      rfl

theorem doc_of_mem_head?_documentFirst (he : e ∈ (documentFirst line doc xs).head?) :
    e.doc = doc := by
  cases xs with
  | nil => cases he
  | cons x xs =>
    obtain rfl := Option.some.inj he
    rfl

theorem doc_of_mem_tail_documentFirst (he : e ∈ (documentFirst line doc xs).tail) :
    e.doc = none := by
  cases xs with
  | nil => cases he
  | cons x xs =>
    obtain ⟨y, -, rfl⟩ := List.mem_map.1 he
    rfl

/-- Declarations of which the first has a documentation are hidden only if that says so. -/
theorem isHidden_of_mem_documentFirst (hdoc : doc.any (·.isHidden) = false)
    (he : e ∈ documentFirst line doc xs) : e.isHidden = false := by
  cases xs with
  | nil => cases he
  | cons x xs =>
    rcases List.mem_cons.1 he with rfl | he
    · exact hdoc
    · obtain ⟨y, -, rfl⟩ := List.mem_map.1 he
      rfl

end DocumentFirst

/-- What is left of a declaration is neither hidden nor private. -/
theorem visible_of_mem_lower {d : Dialect} {e x : Entry} (hx : x ∈ e.lower d) :
    x.isHidden = false ∧ x.declaration.isPrivate = false := by
  unfold lower at hx
  split at hx
  · cases hx
  next hdropped =>
    have hvisible : e.isHidden = false ∧ e.declaration.isPrivate = false := by
      simpa using hdropped
    have hmem := List.mem_map_of_mem (f := declaration) hx
    rw [map_declaration_documentFirst] at hmem
    exact ⟨isHidden_of_mem_documentFirst hvisible.1 hx,
      Declaration.isPrivate_of_mem_lower hvisible.2 hmem⟩

/-- Declarations that are neither hidden nor private export what they declare. -/
theorem flatMap_exports {es : List Entry}
    (h : ∀ e ∈ es, e.isHidden = false ∧ e.declaration.isPrivate = false) :
    es.flatMap exports = (es.map declaration).flatMap Declaration.exports := by
  have heach : ∀ e ∈ es, e.exports = e.declaration.exports := by
    intro e he
    obtain ⟨hhidden, hprivate⟩ := h e he
    simp [exports, hhidden, hprivate]
  rw [List.flatMap_map, List.flatMap_def, List.map_congr_left heach, ← List.flatMap_def]

/-- **One declaration is lowered.** -/
theorem becomes_lower (d : Dialect) (e : Entry) : e.Becomes (e.lower d) := by
  have hexports := flatMap_exports fun x (hx : x ∈ e.lower d) => visible_of_mem_lower hx
  unfold lower at hexports ⊢
  split at hexports
  next hdropped =>
    -- a declaration that is left out exports nothing either
    rw [if_pos hdropped]
    refine ⟨?_, ?_, ?_, ?_, fun _ => Nat.zero_le _⟩
    · rw [exports, if_pos hdropped]
      rfl
    all_goals
      intro x hx
      cases hx
  next hkept =>
    have hdeclarations : (documentFirst e.line e.doc (e.declaration.lower d)).map declaration =
        e.declaration.lower d := map_declaration_documentFirst
    rw [hdeclarations, Declaration.exports_lower] at hexports
    rw [if_neg hkept]
    refine ⟨?_, ?_, ?_, ?_, ?_⟩
    · rw [hexports, exports, if_neg hkept]
    · exact fun x hx => line_of_mem_documentFirst hx
    · exact fun x hx => doc_of_mem_head?_documentFirst hx
    · exact fun x hx => doc_of_mem_tail_documentFirst hx
    · intro hnot
      have hlength : (e.declaration.lower d).length ≤ 1 := Declaration.length_lower_le hnot
      rwa [← hdeclarations, List.length_map] at hlength

end Entry

/-! ## Trees -/

namespace Tree

theorem lowerAll_eq_map (d : Dialect) (children : List (NamespaceKey × Tree)) :
    lowerAll d children = children.map fun c => (c.1, c.2.lower d) := by
  induction children with
  | nil => rfl
  | cons c rest ih => rw [lowerAll, ih, List.map_cons]

/-- Namespaces with different keys that are put into a level one after the other are found there
in that order, after those that it had. -/
theorem foldl_insertChild (t : Tree) (children : List (NamespaceKey × Tree))
    (h : ((t.children ++ children).map Prod.fst).Nodup) :
    children.foldl (fun u c => u.insertChild c.1 c.2) t =
      { t with children := t.children ++ children } := by
  induction children generalizing t with
  | nil =>
    cases t
    rw [List.append_nil]
    rfl
  | cons c rest ih =>
    have hnew : c.1 ∉ t.children.map Prod.fst := by
      rw [List.map_append, List.map_cons, List.nodup_append] at h
      exact fun hmem => h.2.2 _ hmem _ List.mem_cons_self rfl
    have hinsert : t.insertChild c.1 c.2 = { t with children := t.children ++ [c] } := by
      rw [insertChild, insertAmong_of_not_mem hnew]
    rw [List.foldl_cons, hinsert, ih _ (by simpa using h)]
    simp

/-- What a level becomes when it is lowered. -/
structure LevelBecomes (d : Dialect) (t u : Tree) : Prop where
  notes_eq : u.notes = t.notes
  keys_eq : u.children.map Prod.fst = t.children.map Prod.fst
  exports_eq : u.exports = t.exports
  /-- Each declaration becomes a run of declarations, one after the other. -/
  runs : ∃ runs, List.Forall₂ Entry.Becomes t.entries.toList runs ∧ u.entries.toList = runs.flatten
  /-- Where the keys of the level differ, it is the level into which the lowered namespaces are
  put one after the other. -/
  inserted : (t.children.map Prod.fst).Nodup →
    u = (t.children.map fun c => (c.1, c.2.lower d)).foldl
      (fun level c => level.insertChild c.1 c.2) ⟨u.notes, u.entries, []⟩

theorem levelBecomes_lower (d : Dialect) (t : Tree) : t.LevelBecomes d (t.lower d) := by
  obtain ⟨notes, entries, children⟩ := t
  have hruns : List.Forall₂ Entry.Becomes entries.toList (entries.toList.map (Entry.lower d)) := by
    rw [List.forall₂_map_right_iff]
    exact List.forall₂_same.2 fun e _ => e.becomes_lower d
  have hkeys : (lowerAll d children).map Prod.fst = children.map Prod.fst := by
    rw [lowerAll_eq_map, List.map_map]
    rfl
  rw [lower]
  refine ⟨rfl, hkeys, ?_, ⟨_, hruns, List.flatMap_def⟩, fun hnodup => ?_⟩
  · show (entries.toList.flatMap (Entry.lower d)).flatMap Entry.exports = _
    rw [List.flatMap_assoc]
    exact congrArg (List.flatMap · entries.toList)
      (funext fun e => (e.becomes_lower d).exports_eq)
  · rw [foldl_insertChild, ← lowerAll_eq_map]
    · rfl
    · rw [← lowerAll_eq_map]
      exact hkeys ▸ hnodup

mutual

/-- What holds between every level and what it becomes holds level by level. -/
theorem levelwise_lower {R : Tree → Tree → Prop} {d : Dialect} (h : ∀ t, R t (t.lower d))
    (t : Tree) : t.Levelwise R (t.lower d) := by
  obtain ⟨notes, entries, children⟩ := t
  have hhere := h ⟨notes, entries, children⟩
  rw [lower] at hhere ⊢
  exact ⟨hhere, levelwiseIn_lowerAll h children⟩

theorem levelwiseIn_lowerAll {R : Tree → Tree → Prop} {d : Dialect} (h : ∀ t, R t (t.lower d))
    (children : List (NamespaceKey × Tree)) :
    LevelwiseIn R children (lowerAll d children) := by
  cases children with
  | nil => trivial
  | cons c rest =>
    rw [lowerAll]
    exact ⟨rfl, levelwise_lower h c.2, levelwiseIn_lowerAll h rest⟩

end

/-- **Lowering keeps what is public.**  At every level it keeps the notes, the namespaces with
their order, and the exported names with their sorts and their order; the declarations that are
left stand on the line of the one they come from and have its documentation, which of an enum goes
to the first of its members. -/
theorem lower_keeps (d : Dialect) (t : Tree) : t.Levelwise (LevelBecomes d) (t.lower d) :=
  levelwise_lower (levelBecomes_lower d) t

end Tree

end AcsOutline
