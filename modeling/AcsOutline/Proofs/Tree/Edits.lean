import AcsOutline.Proofs.Distinct
import AcsOutline.Proofs.Tree.Update

/-!
# What a list of steps builds

Each step in building a tree is taken at a path: that of the namespaces open at the time.  A
step changes the level of its path and nothing else (`Builder.finish_edit`), so each level of the
finished tree holds what the steps at its path have added (`Builder.shell_after`).
-/

namespace AcsOutline

namespace Builder

open AcsOutline.Tree (touch update)

namespace Edit

variable {α : Type}

/-- The declaration that a step adds. -/
def entry? : Edit → Option Entry
  | .entry e => some e
  | _ => none

/-- The task note that a step adds. -/
def note? : Edit → Option TaskNote
  | .note n => some n
  | _ => none

/-- The key of the namespace that a step opens. -/
def key? : Edit → Option NamespaceKey
  | .enter key => some key
  | _ => none

/-- The keys of the open namespaces, from the outside in, after a step. -/
def walk (path : List NamespaceKey) : Edit → List NamespaceKey
  | .enter key => path ++ [key]
  | .leave => path.dropLast
  | .entry _ | .note _ => path

/-- To open namespaces puts their keys behind those of the open ones. -/
theorem foldl_walk_enter (keys path : List NamespaceKey) :
    (keys.map enter).foldl walk path = path ++ keys := by
  induction keys generalizing path with
  | nil => exact (List.append_nil path).symm
  | cons key keys ih =>
    rw [List.map_cons, List.foldl_cons, ih]
    exact List.append_assoc path [key] keys

/-- The keys of the open namespaces after a list of steps. -/
def pathAfter (edits : List Edit) : List NamespaceKey :=
  edits.foldl walk []

/-- What a list of steps adds while a path is the open one, where `here` is open at first. -/
def addedFrom (what : Edit → Option α) (path here : List NamespaceKey) : List Edit → List α
  | [] => []
  | e :: edits =>
    (if here = path then (what e).toList else []) ++ addedFrom what path (e.walk here) edits

/-- What a list of steps adds while a path is the open one, in the order of the steps. -/
def added (what : Edit → Option α) (path : List NamespaceKey) (edits : List Edit) : List α :=
  addedFrom what path [] edits

/-- What a list of steps adds, each with the path that is open then. -/
def placed (what : Edit → Option α) (here : List NamespaceKey) :
    List Edit → List (List NamespaceKey × α)
  | [] => []
  | e :: edits => (what e).toList.map (here, ·) ++ placed what (e.walk here) edits

/-- What a step does to the level that is open. -/
def effect : Edit → Tree → Tree
  | .enter key => touch key
  | .leave => id
  | .entry e => (·.pushEntry e)
  | .note n => (·.pushNote n)

/-! ## Lists of steps -/

theorem addedFrom_concat (what : Edit → Option α) (path here : List NamespaceKey)
    (edits : List Edit) (e : Edit) :
    addedFrom what path here (edits ++ [e]) = addedFrom what path here edits ++
      if edits.foldl walk here = path then (what e).toList else [] := by
  induction edits generalizing here with
  | nil => exact List.append_nil _
  | cons d edits ih => rw [List.cons_append, addedFrom, ih, ← List.append_assoc]; rfl

theorem added_concat_self (what : Edit → Option α) (edits : List Edit) (e : Edit) :
    added what (pathAfter edits) (edits ++ [e]) =
      added what (pathAfter edits) edits ++ (what e).toList := by
  rw [added, addedFrom_concat, ← pathAfter, if_pos rfl]
  rfl

theorem added_concat_of_ne (what : Edit → Option α) {path : List NamespaceKey}
    {edits : List Edit} (h : path ≠ pathAfter edits) (e : Edit) :
    added what path (edits ++ [e]) = added what path edits := by
  rw [added, addedFrom_concat, ← pathAfter, if_neg (Ne.symm h), List.append_nil]
  rfl

theorem placed_append (what : Edit → Option α) (here : List NamespaceKey)
    (edits edits' : List Edit) :
    placed what here (edits ++ edits') =
      placed what here edits ++ placed what (edits.foldl walk here) edits' := by
  induction edits generalizing here with
  | nil => rfl
  | cons e edits ih => rw [List.cons_append, placed, placed, ih, List.append_assoc]; rfl

theorem placed_eq_nil {what : Edit → Option α} (here : List NamespaceKey) {edits : List Edit}
    (h : ∀ e ∈ edits, what e = none) : placed what here edits = [] := by
  induction edits generalizing here with
  | nil => rfl
  | cons e edits ih =>
    rw [placed, h e List.mem_cons_self, ih _ fun e' he' => h e' (List.mem_cons_of_mem _ he')]
    rfl

theorem map_snd_placed (what : Edit → Option α) (here : List NamespaceKey) (edits : List Edit) :
    (placed what here edits).map Prod.snd = edits.filterMap what := by
  induction edits generalizing here with
  | nil => rfl
  | cons e edits ih =>
    rw [placed, List.map_append, ih, List.filterMap_cons]
    cases what e <;> rfl

/-- What is added at a path is what is added there among all. -/
theorem addedFrom_eq (what : Edit → Option α) (path here : List NamespaceKey)
    (edits : List Edit) : addedFrom what path here edits =
      ((placed what here edits).filter (·.1 = path)).map Prod.snd := by
  induction edits generalizing here with
  | nil => rfl
  | cons e edits ih =>
    rw [addedFrom, placed, List.filter_append, List.map_append, ih]
    congr 1
    cases what e with
    | none => simp
    | some a => by_cases hpath : here = path <;> simp [hpath]

/-- Steps that add nothing may be left away at the end. -/
theorem addedFrom_append_of_none {what : Edit → Option α} (path here : List NamespaceKey)
    (edits : List Edit) {later : List Edit} (h : ∀ e ∈ later, what e = none) :
    addedFrom what path here (edits ++ later) = addedFrom what path here edits := by
  rw [addedFrom_eq, addedFrom_eq, placed_append, placed_eq_nil _ h, List.append_nil]

/-! ## One step on one level -/

/-- A step adds to the shell of a level. -/
theorem shell_effect (e : Edit) (t : Tree) :
    (e.effect t).shell = (t.notes.toList ++ e.note?.toList, t.entries.toList ++ e.entry?.toList,
      match e.key? with
      | some key => if key ∈ t.keys then t.keys else t.keys ++ [key]
      | none => t.keys) := by
  cases e with
  | enter key =>
    simp only [effect, touch, Tree.shell, Tree.keys_insertChild, note?, entry?, key?,
      Option.toList_none, List.append_nil]
    rfl
  | leave => simp [effect, Tree.shell, note?, entry?, key?]
  | entry e => simp [effect, Tree.pushEntry, Tree.shell, Tree.keys, note?, entry?, key?]
  | note n => simp [effect, Tree.pushNote, Tree.shell, Tree.keys, note?, entry?, key?]

/-- A step does not reach into the namespaces of a level. -/
theorem level_effect (e : Edit) (t : Tree) (key : NamespaceKey) (q : List NamespaceKey) :
    (e.effect t).level (key :: q) = t.level (key :: q) := by
  cases e with
  | enter k => exact Tree.level_touch t k key q
  | leave | entry _ | note _ => rfl

/-- A step changes the shell of the level that it is taken at and of no other. -/
theorem shell_level_update (e : Edit) {t : Tree} {p : List NamespaceKey}
    (hp : (t.find? p).isSome) (q : List NamespaceKey) :
    ((update e.effect p t).level q).shell =
      if q = p then (e.effect (t.level p)).shell else (t.level q).shell := by
  split
  · rename_i h
    rw [h, Tree.level_update]
  · rename_i h
    exact Tree.shell_level_update e.level_effect hp h

/-- A level keeps its keys. -/
theorem mem_keys_level_update (e : Edit) {t : Tree} {p q : List NamespaceKey}
    (hp : (t.find? p).isSome) {key : NamespaceKey} (h : key ∈ (t.level q).keys) :
    key ∈ ((update e.effect p t).level q).keys := by
  show key ∈ ((update e.effect p t).level q).shell.2.2
  rw [e.shell_level_update hp]
  split
  · rename_i hq
    rw [hq] at h
    rw [shell_effect]
    cases e.key? with
    | none => exact h
    | some k =>
      show key ∈ if _ then _ else _
      split
      · exact h
      · exact List.mem_append_left _ h
  · exact h

theorem total_effect (e : Edit) (t : Tree) :
    (e.effect t).total = t.total + e.entry?.toList.length := by
  cases e with
  | enter key =>
    have h := Tree.total_insertChild key ((t.child? key).getD .empty) t
    exact Nat.add_right_cancel h
  | leave => rfl
  | entry e =>
    obtain ⟨notes, entries, children⟩ := t
    simp only [effect, Tree.pushEntry, Tree.total, Array.size_push, entry?, Option.toList_some,
      List.length_singleton]
    omega
  | note n => obtain ⟨_, _, _⟩ := t; rfl

end Edit

variable {b : Builder}

/-! ## One step on the whole tree -/

/-- To change the open level and then leave every namespace is to change the finished tree. -/
theorem closeAll_update (f : Tree → Tree) (here : Tree) (above : List (NamespaceKey × Tree)) :
    closeAll (f here) above =
      update f (above.map (·.1)).reverse (closeAll here above) := by
  induction above generalizing f here with
  | nil => rfl
  | cons outer above ih =>
    obtain ⟨key, around⟩ := outer
    have houter : around.insertChild key (f here) =
        update f [key] (around.insertChild key here) := by
      rw [update, Tree.child?_insertChild, if_pos rfl, Tree.insertChild_insertChild]
      rfl
    rw [closeAll, houter, ih, List.map_cons, List.reverse_cons, Tree.update_append]
    rfl

/-- The open level is at the path of open namespaces. -/
theorem find?_path (b : Builder) : b.finish.find? b.path = some b.here := by
  have h := closeAll_update (fun _ => b.here) .empty b.above
  rw [finish, h, path, Tree.find?_update]

/-- **A step changes the level that is open.** -/
theorem finish_edit (b : Builder) (e : Edit) :
    (b.edit e).finish = update e.effect b.path b.finish := by
  obtain ⟨here, above⟩ := b
  cases e with
  | enter key => exact closeAll_update (touch key) here above
  | leave =>
    have hsame := closeAll_update id here above
    cases above <;> exact hsame
  | entry e => exact closeAll_update (·.pushEntry e) here above
  | note n => exact closeAll_update (·.pushNote n) here above

theorem path_edit (b : Builder) (e : Edit) : (b.edit e).path = e.walk b.path := by
  obtain ⟨here, above⟩ := b
  cases e with
  | enter key => exact List.reverse_cons
  | leave =>
    cases above with
    | nil => rfl
    | cons outer above =>
      show (above.map (·.1)).reverse = ((outer :: above).map (·.1)).reverse.dropLast
      rw [List.map_cons, List.reverse_cons, List.dropLast_concat]
  | entry _ | note _ => rfl

/-! ## All steps -/

theorem after_concat (b : Builder) (edits : List Edit) (e : Edit) :
    b.after (edits ++ [e]) = (b.after edits).edit e := by
  rw [after, List.foldl_append]
  rfl

theorem path_foldl (b : Builder) (edits : List Edit) :
    (b.after edits).path = edits.foldl Edit.walk b.path := by
  induction edits generalizing b with
  | nil => rfl
  | cons e edits ih => exact (ih (b.edit e)).trans (by rw [path_edit]; rfl)

theorem path_after (edits : List Edit) : (empty.after edits).path = Edit.pathAfter edits :=
  path_foldl empty edits

/-- **Each level of the finished tree holds what was added at its path**: the task notes, the
declarations and the namespaces, each in the order of the steps. -/
theorem shell_after (edits : List Edit) (path : List NamespaceKey) :
    ((empty.after edits).finish.level path).shell =
      (Edit.added Edit.note? path edits, Edit.added Edit.entry? path edits,
        (Edit.added Edit.key? path edits).eraseDups) := by
  induction edits using List.reverseRecOn with
  | nil =>
    show (Tree.empty.level path).shell = _
    rw [Tree.level_empty]
    rfl
  | append_singleton edits e ih =>
    rw [after_concat, finish_edit]
    by_cases hpath : path = Edit.pathAfter edits
    · subst hpath
      rw [path_after, Tree.level_update, Edit.shell_effect]
      simp only [Tree.shell, Prod.mk.injEq] at ih
      obtain ⟨hnotes, hentries, hkeys⟩ := ih
      simp only [Edit.added_concat_self, hnotes, hentries, hkeys, Prod.mk.injEq, true_and]
      cases e.key? with
      | none => simp
      | some key => exact (eraseDups_concat _ key).symm
    · have hopen : ((empty.after edits).finish.find? (empty.after edits).path).isSome := by
        rw [find?_path]
        rfl
      rw [Tree.shell_level_update e.level_effect hopen (by rwa [path_after]), ih]
      simp only [Edit.added_concat_of_ne _ hpath]

/-- What steps add to one part of a level is added at the end of it, in the levels of their paths. -/
theorem part_after {α : Type} (part : List TaskNote × List Entry × List NamespaceKey → List α)
    (what : Edit → Option α)
    (hpart : ∀ (e : Edit) (t : Tree), part (e.effect t).shell = part t.shell ++ (what e).toList)
    (b : Builder) (edits : List Edit) (path : List NamespaceKey) :
    part ((b.after edits).finish.level path).shell = part (b.finish.level path).shell ++
      Edit.addedFrom what path b.path edits := by
  induction edits generalizing b with
  | nil => exact (List.append_nil _).symm
  | cons e edits ih =>
    have hone : part ((b.edit e).finish.level path).shell = part (b.finish.level path).shell ++
        if b.path = path then (what e).toList else [] := by
      have hopen : (b.finish.find? b.path).isSome := by
        rw [find?_path]
        rfl
      rw [finish_edit, e.shell_level_update hopen]
      by_cases hpath : path = b.path
      · rw [if_pos hpath, if_pos hpath.symm, hpart, hpath]
      · rw [if_neg hpath, if_neg (Ne.symm hpath), List.append_nil]
    rw [show b.after (e :: edits) = (b.edit e).after edits from rfl, ih, hone, path_edit,
      Edit.addedFrom, List.append_assoc]

/-- Steps add task notes at the end of the levels of their paths. -/
theorem notes_after (b : Builder) (edits : List Edit) (path : List NamespaceKey) :
    ((b.after edits).finish.level path).notes.toList = (b.finish.level path).notes.toList ++
      Edit.addedFrom Edit.note? path b.path edits :=
  part_after (fun shell => shell.1) _ (fun e t => by rw [e.shell_effect]; rfl) b edits path

/-- Steps add declarations at the end of the levels of their paths. -/
theorem entries_after (b : Builder) (edits : List Edit) (path : List NamespaceKey) :
    ((b.after edits).finish.level path).entries.toList = (b.finish.level path).entries.toList ++
      Edit.addedFrom Edit.entry? path b.path edits :=
  part_after (fun shell => shell.2.1) _ (fun e t => by rw [e.shell_effect]; rfl) b edits path

/-- No level of the finished tree has two namespaces with the same key. -/
theorem keys_nodup_after (edits : List Edit) (path : List NamespaceKey) :
    ((empty.after edits).finish.level path).keys.Nodup := by
  have hkeys : ((empty.after edits).finish.level path).keys =
      (Edit.added Edit.key? path edits).eraseDups :=
    congrArg (·.2.2) (shell_after edits path)
  rw [hkeys]
  exact nodup_eraseDups _

/-- The declarations of the finished tree are as many as were added. -/
theorem total_after (edits : List Edit) :
    (empty.after edits).finish.total = (edits.filterMap Edit.entry?).length := by
  induction edits using List.reverseRecOn with
  | nil => rfl
  | append_singleton edits e ih =>
    rw [after_concat, finish_edit, Tree.total_update e.total_effect, ih, List.filterMap_append,
      List.length_append]
    cases e <;> rfl

end Builder

end AcsOutline
