import AcsOutline.Outline
import AcsOutline.Proofs.Tree.Edits

/-!
# Bindings and the outline

An outline has one line for each declaration and each namespace of a tree.  `Tree.outlineItems`
lists what these lines show, each item with the path of keys from the root to its level.  Both the
outline and the bindings are read off this list, so that the bindings come in the order in which the
outline shows the functions (`Tree.outlineLines_eq`, `Tree.bindingsBelow_eq`); and the items with
one path are the declarations of the level that the path leads to (`Tree.filterMap_entryAt?`), as
long as no level has two namespaces with the same key.
-/

namespace AcsOutline

/-- A function binding says where the function is declared, on which line and what is said about
it. -/
theorem Binding.of_ofDeclared? {path : List NamespaceKey} {e : Entry} {b : Binding}
    (h : ofDeclared? path e = some b) :
    b.path = path ∧ e.declaration = .function b.function ∧ e.line = b.line ∧ e.doc = b.doc := by
  unfold ofDeclared? at h
  split at h
  next f hf =>
    obtain rfl := Option.some.inj h
    exact ⟨rfl, hf, rfl, rfl⟩
  · cases h

/-- What a line of an outline shows. -/
inductive Shown where
  | entry (e : Entry)
  | opening (key : NamespaceKey)

namespace Shown

/-- The text of the line, without its indentation. -/
def text : Shown → String
  | entry e => e.outlineText
  | opening key => key.render

/-- The declaration that is shown, if it is one. -/
def entry? : Shown → Option Entry
  | entry e => some e
  | opening _ => none

end Shown

/-- A line of an outline: what it shows, and the path of keys to the level where that stands. -/
structure OutlineItem where
  path : List NamespaceKey
  shown : Shown

namespace OutlineItem

/-- The same item, seen from the level around the one that the path starts from. -/
def under (key : NamespaceKey) (i : OutlineItem) : OutlineItem :=
  { i with path := key :: i.path }

/-- What a line is indented by below a number of namespaces. -/
def margin : Nat → String
  | 0 => ""
  | n + 1 => indent ++ margin n

/-- The line as it stands in the outline. -/
def line (i : OutlineItem) : String :=
  margin i.path.length ++ i.shown.text

/-- The binding of the item, if it is a function, for a tree that stands below `path`. -/
def binding? (path : List NamespaceKey) (i : OutlineItem) : Option Binding :=
  i.shown.entry?.bind (Binding.ofDeclared? (path ++ i.path))

/-- The declaration that is shown, if it stands at the level of a path. -/
def entryAt? (path : List NamespaceKey) (i : OutlineItem) : Option Entry :=
  if i.path = path then i.shown.entry? else none

theorem binding?_under (path : List NamespaceKey) (key : NamespaceKey) (i : OutlineItem) :
    (i.under key).binding? path = i.binding? (path ++ [key]) := by
  simp [binding?, under]

end OutlineItem

namespace Tree

open OutlineItem

mutual

/-- What the lines of the outline of a tree show, in order. -/
def outlineItems : Tree → List OutlineItem
  | ⟨_, entries, children⟩ =>
    entries.toList.map (fun e => ⟨[], .entry e⟩) ++ outlineItemsAll children

/-- What the lines of the outlines of namespaces show. -/
def outlineItemsAll : List (NamespaceKey × Tree) → List OutlineItem
  | [] => []
  | (key, t) :: rest =>
    ⟨[], .opening key⟩ :: (t.outlineItems.map (under key) ++ outlineItemsAll rest)

end

/-! ## What is read off the items -/

mutual

/-- **The outline has one line for each item.** -/
theorem outlineLines_eq (t : Tree) (start : String) :
    t.outlineLines start = t.outlineItems.map fun i => start ++ i.line := by
  obtain ⟨notes, entries, children⟩ := t
  rw [outlineLines, outlineItems, List.map_append, outlineLinesAll_eq children, List.map_map]
  simp [Function.comp_def, line, margin, Shown.text]

theorem outlineLinesAll_eq (children : List (NamespaceKey × Tree)) (start : String) :
    outlineLinesAll start children = (outlineItemsAll children).map fun i => start ++ i.line := by
  cases children with
  | nil => rfl
  | cons c rest =>
    obtain ⟨key, t⟩ := c
    have hunder : (t.outlineItems.map (under key)).map (fun i => start ++ i.line) =
        t.outlineItems.map fun i => start ++ indent ++ i.line := by
      rw [List.map_map]
      refine List.map_congr_left fun i _ => ?_
      simp [line, under, margin, String.append_assoc]
    rw [outlineLinesAll, outlineItemsAll, List.map_cons, List.map_append, hunder,
      outlineLines_eq t, outlineLinesAll_eq rest]
    simp [line, margin, Shown.text]

end

mutual

/-- **The bindings are those of the items**, in the same order. -/
theorem bindingsBelow_eq (t : Tree) (path : List NamespaceKey) :
    t.bindingsBelow path = t.outlineItems.filterMap (binding? path) := by
  obtain ⟨notes, entries, children⟩ := t
  rw [bindingsBelow, outlineItems, List.filterMap_append, bindingsBelowAll_eq children,
    List.filterMap_map]
  simp [Function.comp_def, binding?, Shown.entry?]

theorem bindingsBelowAll_eq (children : List (NamespaceKey × Tree)) (path : List NamespaceKey) :
    bindingsBelowAll path children = (outlineItemsAll children).filterMap (binding? path) := by
  cases children with
  | nil => rfl
  | cons c rest =>
    obtain ⟨key, t⟩ := c
    have hunder : (t.outlineItems.map (under key)).filterMap (binding? path) =
        t.outlineItems.filterMap (binding? (path ++ [key])) := by
      rw [List.filterMap_map]
      exact congrArg (List.filterMap · _) (funext (binding?_under path key))
    rw [bindingsBelowAll, outlineItemsAll, List.filterMap_cons_none rfl, List.filterMap_append,
      hunder, bindingsBelow_eq t, bindingsBelowAll_eq rest]

end

/-! ## Distinct keys

Trees start empty, and all that is done to a level leaves its keys distinct; so every tree that is
built step by step has distinct keys at every level (`Tree.isKeyed_after`). -/

/-- No level has two namespaces with the same key. -/
def IsKeyed (t : Tree) : Prop :=
  t.EveryLevel fun level => level.keys.Nodup

theorem isKeyed_empty : empty.IsKeyed :=
  ⟨List.nodup_nil, trivial⟩

/-- A declaration does not touch the keys of a level. -/
theorem IsKeyed.pushEntry {t : Tree} (h : t.IsKeyed) (e : Entry) : (t.pushEntry e).IsKeyed := by
  obtain ⟨notes, entries, children⟩ := t
  exact h

/-- A task note does not touch the keys of a level. -/
theorem IsKeyed.pushNote {t : Tree} (h : t.IsKeyed) (n : TaskNote) : (t.pushNote n).IsKeyed := by
  obtain ⟨notes, entries, children⟩ := t
  exact h

/-- A namespace is put in the place of the one with its key. -/
theorem IsKeyed.insertChild {t child : Tree} (h : t.IsKeyed) (key : NamespaceKey)
    (hchild : child.IsKeyed) : (t.insertChild key child).IsKeyed := by
  obtain ⟨notes, entries, children⟩ := t
  have hbelow : ∀ children : List (NamespaceKey × Tree),
      EveryLevelIn (fun level => level.keys.Nodup) children →
        EveryLevelIn (fun level => level.keys.Nodup) (insertAmong key child children) := by
    intro children hall
    induction children with
    | nil => exact ⟨hchild, trivial⟩
    | cons c rest ih =>
      rw [insertAmong]
      split
      · exact ⟨hchild, hall.2⟩
      · exact ⟨hall.1, ih hall.2⟩
  refine ⟨?_, hbelow children h.2⟩
  have hkeys : ((⟨notes, entries, children⟩ : Tree).insertChild key child).keys.Nodup := by
    rw [keys_insertChild]
    split
    next => exact h.1
    next hnew => exact nodup_concat h.1 hnew
  exact hkeys

mutual

/-- With distinct keys at every path, no level is hidden behind another one of its key. -/
theorem isKeyed_of_levels (t : Tree) (h : ∀ path, (t.level path).keys.Nodup) : t.IsKeyed := by
  obtain ⟨notes, entries, children⟩ := t
  refine ⟨h [], isKeyed_of_levels_all children fun c hc path => ?_⟩
  have hchild : (⟨notes, entries, children⟩ : Tree).child? c.1 = some c.2 := child?_of_mem hc (h [])
  have hpath := h (c.1 :: path)
  rwa [level_cons, hchild] at hpath

theorem isKeyed_of_levels_all (children : List (NamespaceKey × Tree))
    (h : ∀ c ∈ children, ∀ path, (c.2.level path).keys.Nodup) :
    EveryLevelIn (fun level => level.keys.Nodup) children := by
  cases children with
  | nil => exact trivial
  | cons c rest =>
    exact ⟨isKeyed_of_levels c.2 (h c List.mem_cons_self),
      isKeyed_of_levels_all rest fun d hd => h d (List.mem_cons_of_mem c hd)⟩

end

/-- No level of a tree that is built step by step has two namespaces with the same key. -/
theorem isKeyed_after (edits : List Builder.Edit) :
    (Builder.empty.after edits).finish.IsKeyed :=
  isKeyed_of_levels _ (Builder.keys_nodup_after edits)

/-! ## The items of one level -/

/-- What stands inside a namespace is found at the paths that begin with its key. -/
theorem filterMap_entryAt?_under (items : List OutlineItem) (key key' : NamespaceKey)
    (path : List NamespaceKey) :
    (items.map (under key)).filterMap (entryAt? (key' :: path)) =
      if key = key' then items.filterMap (entryAt? path) else [] := by
  rw [List.filterMap_map]
  by_cases h : key = key'
  · rw [if_pos h]
    refine congrArg (List.filterMap · _) (funext fun i => ?_)
    simp [entryAt?, under, h]
  · rw [if_neg h, List.filterMap_eq_nil_iff]
    exact fun i _ => if_neg fun e => h (List.cons.inj e).1

/-- Nothing that stands inside a namespace stands at the level around it. -/
theorem filterMap_entryAt?_nil (children : List (NamespaceKey × Tree)) :
    (outlineItemsAll children).filterMap (entryAt? []) = [] := by
  induction children with
  | nil => rfl
  | cons c rest ih =>
    rw [outlineItemsAll, List.filterMap_cons_none rfl, List.filterMap_append, ih, List.append_nil,
      List.filterMap_map, List.filterMap_eq_nil_iff]
    exact fun i _ => by simp [entryAt?, under]

mutual

/-- **The items with one path are the declarations of the level that the path leads to.** -/
theorem filterMap_entryAt? (t : Tree) (h : t.IsKeyed) (path : List NamespaceKey) :
    t.outlineItems.filterMap (entryAt? path) = (t.level path).entries.toList := by
  obtain ⟨notes, entries, children⟩ := t
  rw [outlineItems, List.filterMap_append, List.filterMap_map]
  cases path with
  | nil =>
    rw [filterMap_entryAt?_nil, List.append_nil]
    simp [Function.comp_def, entryAt?, Shown.entry?]
  | cons key path =>
    have hhere : entries.toList.filterMap
        (entryAt? (key :: path) ∘ fun e => ⟨[], .entry e⟩) = [] := by
      rw [List.filterMap_eq_nil_iff]
      exact fun e _ => by simp [entryAt?]
    rw [hhere, List.nil_append, filterMap_entryAt?_all children h.1 h.2, level_cons]
    rfl

theorem filterMap_entryAt?_all (children : List (NamespaceKey × Tree))
    (hkeys : (children.map Prod.fst).Nodup)
    (h : EveryLevelIn (fun level => level.keys.Nodup) children) (key : NamespaceKey)
    (path : List NamespaceKey) :
    (outlineItemsAll children).filterMap (entryAt? (key :: path)) =
      (((children.lookup key).getD .empty).level path).entries.toList := by
  cases children with
  | nil => rw [List.lookup_nil, Option.getD_none, level_empty]; rfl
  | cons c rest =>
    obtain ⟨k, t⟩ := c
    have hrest := filterMap_entryAt?_all rest (List.nodup_cons.1 hkeys).2 h.2 key path
    rw [outlineItemsAll, List.filterMap_cons_none rfl, List.filterMap_append,
      filterMap_entryAt?_under, hrest]
    by_cases hkey : k = key
    · -- the key is not met again
      subst hkey
      have hnone : rest.lookup k = none := lookup_of_not_mem (List.nodup_cons.1 hkeys).1
      rw [if_pos rfl, hnone, List.lookup_cons_self, filterMap_entryAt? t h.1 path,
        Option.getD_none, level_empty]
      exact List.append_nil _
    · rw [if_neg hkey, List.nil_append, List.lookup_cons, beq_false_of_ne (Ne.symm hkey)]

end

/-- **The bindings with one path are the functions of the level that the path leads to.** -/
theorem filter_bindings (t : Tree) (h : t.IsKeyed) (path : List NamespaceKey) :
    t.bindings.filter (fun b => b.path = path) =
      (t.level path).entries.toList.filterMap (Binding.ofDeclared? path) := by
  have hitem : ∀ i : OutlineItem, (i.binding? []).filter (fun b => b.path = path) =
      (i.entryAt? path).bind (Binding.ofDeclared? path) := by
    intro i
    obtain ⟨here, shown⟩ := i
    cases shown with
    | opening key => simp [binding?, entryAt?, Shown.entry?]
    | entry e =>
      cases hdeclared : Binding.ofDeclared? here e with
      | none =>
        by_cases hhere : here = path
        · simp [binding?, entryAt?, Shown.entry?, ← hhere, hdeclared]
        · simp [binding?, entryAt?, Shown.entry?, hhere, hdeclared]
      | some b =>
        have hpath : b.path = here := (Binding.of_ofDeclared? hdeclared).1
        by_cases hhere : here = path
        · simp [binding?, entryAt?, Shown.entry?, ← hhere, hdeclared, hpath]
        · simp [binding?, entryAt?, Shown.entry?, hhere, hdeclared, hpath]
  rw [bindings, bindingsBelow_eq, List.filter_filterMap, ← filterMap_entryAt? t h path,
    List.filterMap_filterMap]
  exact congrArg (List.filterMap · _) (funext hitem)

/-- **Every function is bound once, where it is declared.**  The bindings come in the order in which
the outline has the functions.  Those with one path are the functions of the level that the path
leads to, each as often as it is declared there; so the path of a binding leads to a level that
declares its function, on its line and with its documentation. -/
theorem bindings_listed (t : Tree) (h : t.IsKeyed) :
    t.outline = unlines (t.outlineItems.map line) ∧
      t.bindings = t.outlineItems.filterMap (binding? []) ∧
      (∀ path, t.bindings.filter (fun b => b.path = path) =
        (t.level path).entries.toList.filterMap (Binding.ofDeclared? path)) ∧
      ∀ b ∈ t.bindings, ∃ level e, t.find? b.path = some level ∧ e ∈ level.entries ∧
        e.declaration = .function b.function ∧ e.line = b.line ∧ e.doc = b.doc := by
  refine ⟨?_, bindingsBelow_eq t [], filter_bindings t h, fun b hb => ?_⟩
  · rw [outline, outlineLines_eq]
    simp only [String.empty_append]
  · have hmem : b ∈ t.bindings.filter (fun c => c.path = b.path) :=
      List.mem_filter.2 ⟨hb, decide_eq_true rfl⟩
    rw [filter_bindings t h, List.mem_filterMap] at hmem
    obtain ⟨e, he, hdeclared⟩ := hmem
    rw [level] at he
    cases hfound : t.find? b.path with
    | none =>
      rw [hfound] at he
      cases he
    | some level =>
      rw [hfound] at he
      exact ⟨level, e, rfl, Array.mem_toList_iff.1 he, (Binding.of_ofDeclared? hdeclared).2⟩

/-- Two functions of one name, inside namespaces that differ only in that one of them is strict. -/
theorem bindings_listed_strict :
    let f : FunctionDecl := ⟨false, "void", "Score", [], false⟩
    let t : Tree := ⟨#[], #[⟨.function f, 1, none⟩],
      [(⟨false, some "Game"⟩, ⟨#[], #[⟨.library "GAME", 3, none⟩], [(⟨true, none⟩,
        ⟨#[], #[⟨.function f, 5, none⟩], []⟩)]⟩),
      (⟨true, some "Game"⟩, ⟨#[], #[⟨.function f, 8, none⟩, ⟨.function f, 9, none⟩], []⟩)]⟩
    t.IsKeyed ∧
      t.bindings = [⟨[], f, 1, none⟩, ⟨[⟨false, some "Game"⟩, ⟨true, none⟩], f, 5, none⟩,
        ⟨[⟨true, some "Game"⟩], f, 8, none⟩, ⟨[⟨true, some "Game"⟩], f, 9, none⟩] ∧
      ∃ level e, t.find? [⟨false, some "Game"⟩, ⟨true, none⟩] = some level ∧ e ∈ level.entries ∧
        e.declaration = .function f ∧ e.line = 5 ∧ e.doc = none := by
  intro f t
  have hkeyed : t.IsKeyed :=
    ⟨by decide, ⟨by decide, ⟨by decide, trivial⟩, trivial⟩, ⟨by decide, trivial⟩, trivial⟩
  have hbindings : t.bindings = [⟨[], f, 1, none⟩,
      ⟨[⟨false, some "Game"⟩, ⟨true, none⟩], f, 5, none⟩, ⟨[⟨true, some "Game"⟩], f, 8, none⟩,
      ⟨[⟨true, some "Game"⟩], f, 9, none⟩] := by
    decide
  obtain ⟨-, -, -, hlevel⟩ := bindings_listed t hkeyed
  exact ⟨hkeyed, hbindings, hlevel ⟨[⟨false, some "Game"⟩, ⟨true, none⟩], f, 5, none⟩
    (hbindings ▸ by simp)⟩

end Tree

end AcsOutline
