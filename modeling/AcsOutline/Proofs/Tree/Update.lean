import AcsOutline.Proofs.Tree.Levels

/-!
# Changing one level of a tree

`Tree.level` is the level that a path of keys leads to, and `Tree.update` changes that level.  What
a level holds itself, without what is inside its namespaces, is its `Tree.shell`: to change one
level that is there leaves the shells of all others alone (`shell_level_update`), as long as the
change only touches the level itself.
-/

namespace AcsOutline

namespace Tree

variable {t : Tree} {f : Tree → Tree} {key : NamespaceKey} {p q : List NamespaceKey}

/-- The keys of the namespaces of a level. -/
def keys (t : Tree) : List NamespaceKey :=
  t.children.map Prod.fst

/-- The level that a path leads to, which is empty where there is none. -/
def level (t : Tree) (path : List NamespaceKey) : Tree :=
  (t.find? path).getD .empty

/-- What a level holds itself. -/
def shell (t : Tree) : List TaskNote × List Entry × List NamespaceKey :=
  (t.notes.toList, t.entries.toList, t.keys)

/-- Changes the level that a path leads to; what is missing on the way is made. -/
def update (f : Tree → Tree) : List NamespaceKey → Tree → Tree
  | [], t => f t
  | key :: path, t => t.insertChild key (update f path ((t.child? key).getD .empty))

/-- Makes sure that a level has a namespace with a key. -/
def touch (key : NamespaceKey) (t : Tree) : Tree :=
  t.insertChild key ((t.child? key).getD .empty)

/-! ## Namespaces of a level -/

theorem lookup_insertAmong (key key' : NamespaceKey) (child : Tree)
    (children : List (NamespaceKey × Tree)) :
    (insertAmong key child children).lookup key' =
      if key' = key then some child else children.lookup key' := by
  induction children with
  | nil =>
    by_cases h : key' = key
    · simp [insertAmong, h]
    · simp [insertAmong, List.lookup_cons, h, beq_false_of_ne h]
  | cons c rest ih =>
    obtain ⟨k, t⟩ := c
    by_cases hk : k = key
    · subst hk
      by_cases h : key' = k
      · simp [insertAmong, h]
      · simp [insertAmong, List.lookup_cons, h, beq_false_of_ne h]
    · by_cases h : key' = k
      · subst h
        simp [insertAmong, hk]
      · simpa [insertAmong, hk, List.lookup_cons, beq_false_of_ne h] using ih

theorem child?_insertChild (key key' : NamespaceKey) (child t : Tree) :
    (t.insertChild key child).child? key' = if key' = key then some child else t.child? key' :=
  lookup_insertAmong ..

theorem keys_insertAmong (key : NamespaceKey) (child : Tree)
    (children : List (NamespaceKey × Tree)) :
    (insertAmong key child children).map Prod.fst =
      if key ∈ children.map Prod.fst then children.map Prod.fst
      else children.map Prod.fst ++ [key] := by
  induction children with
  | nil => simp [insertAmong]
  | cons c rest ih =>
    by_cases hk : c.1 = key
    · simp [insertAmong, hk]
    · rw [insertAmong, if_neg hk, List.map_cons, ih]
      by_cases hmem : key ∈ rest.map Prod.fst
      · simp [hmem]
      · simp [hmem, Ne.symm hk]

theorem keys_insertChild (key : NamespaceKey) (child t : Tree) :
    (t.insertChild key child).keys = if key ∈ t.keys then t.keys else t.keys ++ [key] :=
  keys_insertAmong ..

theorem mem_keys_touch (key : NamespaceKey) (t : Tree) : key ∈ (t.touch key).keys := by
  rw [touch, keys_insertChild]
  split
  · assumption
  · exact List.mem_append_right _ (List.mem_singleton_self key)

/-- The namespace put in place last is the one that stays. -/
theorem insertChild_insertChild (key : NamespaceKey) (child child' t : Tree) :
    (t.insertChild key child).insertChild key child' = t.insertChild key child' := by
  have hchildren : ∀ children : List (NamespaceKey × Tree),
      insertAmong key child' (insertAmong key child children) = insertAmong key child' children := by
    intro children
    induction children with
    | nil => simp [insertAmong]
    | cons c rest ih =>
      by_cases hk : c.1 = key <;> simp [insertAmong, hk, ih]
  exact congrArg (fun children => { t with children := children }) (hchildren t.children)

/-- A key has a namespace if it is one of the keys of the level. -/
theorem isSome_child? : (t.child? key).isSome ↔ key ∈ t.keys := by
  cases h : t.child? key with
  | none =>
    have hnone := List.lookup_eq_none_iff.1 h
    refine ⟨nofun, fun hmem => ?_⟩
    obtain ⟨c, hc, rfl⟩ := List.mem_map.1 hmem
    simpa using hnone c hc
  | some child =>
    obtain ⟨before, after, hsplit, -⟩ := List.lookup_eq_some_iff.1 h
    exact ⟨fun _ => by simp [keys, hsplit], fun _ => rfl⟩

/-- Among distinct keys, each finds the namespace that stands beside it. -/
theorem child?_of_mem {child : Tree} (h : (key, child) ∈ t.children) (hkeys : t.keys.Nodup) :
    t.child? key = some child := by
  obtain ⟨before, after, hsplit⟩ := List.append_of_mem h
  refine List.lookup_eq_some_iff.2 ⟨before, after, hsplit, fun c hc => ?_⟩
  rw [keys, hsplit, List.map_append, List.map_cons] at hkeys
  have hne : key ≠ c.1 := fun e =>
    (List.nodup_append.1 hkeys).2.2 c.1 (List.mem_map_of_mem hc) key List.mem_cons_self e.symm
  simpa using hne

/-! ## Levels of a path -/

@[simp]
theorem level_nil (t : Tree) : t.level [] = t := rfl

theorem find?_cons (t : Tree) (key : NamespaceKey) (path : List NamespaceKey) :
    t.find? (key :: path) = (t.child? key).bind (·.find? path) := rfl

@[simp]
theorem level_empty (path : List NamespaceKey) : empty.level path = empty := by
  cases path <;> rfl

theorem level_cons (t : Tree) (key : NamespaceKey) (path : List NamespaceKey) :
    t.level (key :: path) = ((t.child? key).getD .empty).level path := by
  rw [level, find?_cons]
  cases t.child? key with
  | none => exact (level_empty path).symm
  | some child => rfl

theorem level_append (t : Tree) (p q : List NamespaceKey) :
    t.level (p ++ q) = (t.level p).level q := by
  induction p generalizing t with
  | nil => rfl
  | cons key p ih => rw [List.cons_append, level_cons, level_cons, ih]

/-- There is nothing behind a key that a level does not have. -/
theorem level_concat_of_not_mem (h : key ∉ (t.level p).keys) : t.level (p ++ [key]) = empty := by
  have hnone : (t.level p).child? key = none := lookup_of_not_mem h
  rw [level_append, level_cons, hnone]
  rfl

theorem level_insertChild (key key' : NamespaceKey) (child t : Tree) (q : List NamespaceKey) :
    (t.insertChild key child).level (key' :: q) =
      if key' = key then child.level q else t.level (key' :: q) := by
  rw [level_cons, level_cons, child?_insertChild]
  split <;> rfl

/-- To touch a level changes nothing inside its namespaces. -/
theorem level_touch (t : Tree) (key key' : NamespaceKey) (q : List NamespaceKey) :
    (t.touch key).level (key' :: q) = t.level (key' :: q) := by
  rw [touch, level_insertChild]
  split
  · rename_i h
    rw [level_cons, h]
  · rfl

theorem update_append (f : Tree → Tree) (p : List NamespaceKey) (key : NamespaceKey) (t : Tree) :
    update f (p ++ [key]) t = update (update f [key]) p t := by
  induction p generalizing t with
  | nil => rfl
  | cons k p ih => exact congrArg (t.insertChild k) (ih _)

/-- The level that a path leads to is the one that is changed. -/
theorem find?_update (f : Tree → Tree) (p : List NamespaceKey) (t : Tree) :
    (update f p t).find? p = some (f (t.level p)) := by
  induction p generalizing t with
  | nil => rfl
  | cons key p ih =>
    rw [find?_cons, update, child?_insertChild, if_pos rfl, Option.bind_some, ih, level_cons]

theorem level_update (f : Tree → Tree) (p : List NamespaceKey) (t : Tree) :
    (update f p t).level p = f (t.level p) := by
  rw [level, find?_update, Option.getD_some]

/-- **To change one level leaves the shells of the others alone**, if the level is there and the
change does not reach into its namespaces. -/
theorem shell_level_update (hf : ∀ t key q, (f t).level (key :: q) = t.level (key :: q))
    (hp : (t.find? p).isSome) (hne : q ≠ p) :
    ((update f p t).level q).shell = (t.level q).shell := by
  induction p generalizing t q with
  | nil =>
    cases q with
    | nil => exact absurd rfl hne
    | cons key q => rw [update, hf]
  | cons key p ih =>
    rw [find?_cons] at hp
    obtain ⟨child, hchild⟩ : ∃ child, t.child? key = some child :=
      Option.isSome_iff_exists.1 (Option.isSome_of_isSome_bind hp)
    rw [hchild, Option.bind_some] at hp
    rw [update, hchild, Option.getD_some]
    cases q with
    | nil =>
      have hmem : key ∈ t.keys := isSome_child?.1 (by rw [hchild]; rfl)
      simp only [level_nil, shell, keys_insertChild, if_pos hmem]
      rfl
    | cons key' q =>
      rw [level_insertChild]
      split
      · rename_i h
        subst h
        rw [ih hp (fun e => hne (congrArg (key' :: ·) e)), level_cons, hchild, Option.getD_some]
      · rfl

/-! ## Counting declarations -/

theorem totalAll_insertAmong (key : NamespaceKey) (child : Tree)
    (children : List (NamespaceKey × Tree)) :
    totalAll (insertAmong key child children) + ((children.lookup key).getD .empty).total =
      totalAll children + child.total := by
  induction children with
  | nil => simp [insertAmong, totalAll, empty, total]
  | cons c rest ih =>
    obtain ⟨k, t⟩ := c
    by_cases hk : k = key
    · subst hk
      simp only [insertAmong, if_pos, totalAll, List.lookup_cons_self, Option.getD_some]
      omega
    · have hne : (key == k) = false := by simpa using Ne.symm hk
      simp only [insertAmong, if_neg hk, totalAll, List.lookup_cons, hne]
      omega

theorem total_insertChild (key : NamespaceKey) (child t : Tree) :
    (t.insertChild key child).total + ((t.child? key).getD .empty).total =
      t.total + child.total := by
  obtain ⟨notes, entries, children⟩ := t
  have h := totalAll_insertAmong key child children
  simp only [insertChild, child?, total] at h ⊢
  omega

/-- What a change adds to the declarations of one level, it adds to those of the tree. -/
theorem total_update {n : Nat} (hf : ∀ t, (f t).total = t.total + n) (p : List NamespaceKey)
    (t : Tree) : (update f p t).total = t.total + n := by
  induction p generalizing t with
  | nil => exact hf t
  | cons key p ih =>
    have h := total_insertChild key (update f p ((t.child? key).getD .empty)) t
    rw [ih] at h
    rw [update]
    omega

end Tree

end AcsOutline
